import ScriptValue.Proofs.Chunk.Replace

/-!
Chunks of chunks. Of several specs each means chunks of what the specs behind it mean, so together
they mean one span of the sequence; and what is written in its place can be read back.
-/

namespace ScriptValue

structure Span.Cuts {α : Type} (c : Span) (us before inner after : List α) : Prop where
  eq_append : us = before ++ (inner ++ after)
  eq_lengths : c = ⟨before.length, before.length + inner.length⟩

namespace Span

variable {α : Type} {c c' : Span} {us before inner after before' inner' after' : List α}

theorem Within.cuts (h : c.Within us.length) :
    c.Cuts us (us.take c.start) (c.slice us) (us.drop c.stop) where
  eq_append := by
    have htake : us.take c.start = (us.take c.stop).take c.start := by
      rw [List.take_take, Nat.min_eq_left h.start_le_stop]
    rw [slice, htake, ← List.append_assoc, List.take_append_drop, List.take_append_drop]
  eq_lengths := by
    have hstart : (us.take c.start).length = c.start :=
      List.length_take_of_le (Nat.le_trans h.start_le_stop h.stop_le)
    rw [slice, List.length_drop, List.length_take_of_le h.stop_le, hstart,
      Nat.add_sub_cancel' h.start_le_stop]

theorem Cuts.trans (h : c.Cuts us before inner after) (h' : c'.Cuts inner before' inner' after') :
    Cuts ⟨c.start + c'.start, c.start + c'.stop⟩ us (before ++ before') inner'
      (after' ++ after) where
  eq_append := by
    rw [h.eq_append, h'.eq_append]
    simp only [List.append_assoc]
  eq_lengths := by
    rw [h.eq_lengths, h'.eq_lengths]
    simp only [List.length_append, Nat.add_assoc]

theorem Cuts.replace (h : c.Cuts us before inner after) (r : List α) :
    us.take c.start ++ r ++ us.drop c.stop = before ++ (r ++ after) := by
  rw [h.eq_lengths, h.eq_append, List.take_left, ← List.append_assoc before, ← List.length_append,
    List.drop_left, List.append_assoc]

end Span

def ChunkSpec.IsSingle (spec : ChunkSpec) : Prop :=
  spec.last = none ∧ ∃ n : Nat, 1 ≤ n ∧ spec.first = .nth n

theorem ChunkSpec.IsSingle.clampedBounds {spec : ChunkSpec} (h : spec.IsSingle) :
    ∃ n, 1 ≤ n ∧ ∀ count, spec.clampedBounds count = (n, n) := by
  obtain ⟨hlast, n, hn, hfirst⟩ := h
  refine ⟨n, hn, fun count => ?_⟩
  simp only [ChunkSpec.clampedBounds, bounds, hlast, hfirst, Option.getD_none, Ordinal.resolve,
    Int.toNat_natCast, Nat.max_eq_left hn]

variable {α : Type} [DecidableEq α] [ChunkUnit α] {spec : ChunkSpec} {d : Delimiters} {us : List α}

theorem range_cuts (spec : ChunkSpec) (d : Delimiters) (us : List α) :
    let c := (Segmentation.of spec.kind d us).range spec
    c.Cuts us (us.take c.start) (extract d spec us) (us.drop c.stop) :=
  ((Segmentation.ordered_of spec.kind d us).range_within spec).cuts

namespace Piece

theorem extract_eq_getD {n : Nat} (hn : 1 ≤ n) (hb : ∀ count, spec.clampedBounds count = (n, n)) :
    extract d spec us = (chunks spec.kind d us).getD (n - 1) [] := by
  have hget : (Segmentation.of spec.kind d us).get n =
      (chunks spec.kind d us).getD ((n : Int).toNat - 1) [] := Segmentation.get_eq_getD (by omega)
  rw [Int.toNat_natCast] at hget
  rw [← hget, extract, Segmentation.extract, Segmentation.get]
  by_cases hcount : n ≤ (Segmentation.of spec.kind d us).count
  · rw [Segmentation.range_of_le (hb _) hcount (Nat.le_refl n), Nat.min_eq_left hcount]
  · have hlt := Nat.not_le.1 hcount
    rw [Segmentation.range_of_count_lt (hb _) hlt,
      Segmentation.span_of_none (Segmentation.chunk?_of_count_lt (by omega)),
      Segmentation.start_of_count_lt (by omega)]

variable [LawfulChunkUnit α]

theorem sep_of_mem_chunks {kind : ChunkKind} (hkind : kind.isSeparated = true) {body : List α}
    (hbody : body ∈ chunks kind d us) : ∀ u ∈ body, separates kind d u = false := by
  obtain ⟨p, hp, rfl⟩ := List.mem_map.1 hbody
  obtain ⟨vs, hfits⟩ := ((reads_cut kind d).layout us).exists_of_mem hp
  exact (replaceable_fits d hkind).sep_eq_false hfits

variable (hkind : spec.kind.isSeparated = true)

include hkind

variable (hsingle : spec.IsSingle)

include hsingle

theorem sep_of_mem_extract : ∀ u ∈ extract d spec us, separates spec.kind d u = false := by
  obtain ⟨n, hn, hb⟩ := hsingle.clampedBounds
  rw [extract_eq_getD hn hb, List.getD_eq_getElem?_getD]
  cases hchunk : (chunks spec.kind d us)[n - 1]? with
  | none => exact List.forall_mem_nil _
  | some body => exact sep_of_mem_chunks hkind (List.mem_of_getElem? hchunk)

theorem extract_splice
    (h : (spec.clampedBounds (Segmentation.of spec.kind d us).count).1 ≤
      (Segmentation.of spec.kind d us).count) {r : List α}
    (hr : Unbroken (separates spec.kind d) r) :
    extract d spec (splice d spec .into r us) = r := by
  obtain ⟨n, hn, hb⟩ := hsingle.clampedBounds
  rw [hb] at h
  have hbefore : ((chunks spec.kind d us).take (n - 1)).length = n - 1 := by
    rw [List.length_take_of_le]
    rw [← length_chunks]
    omega
  rw [extract_eq_getD hn hb, chunks_splice_of_le hkind hr (hb _) h (Nat.le_refl n),
    List.getD_eq_getElem?_getD, List.getElem?_append_right (by omega), hbefore, Nat.sub_self]
  rfl

end Piece

namespace Nested

def meant (d : Delimiters) (us : List α) : List ChunkSpec → List α
  | [] => us
  | spec :: specs => extract d spec (meant d us specs)

def span (d : Delimiters) (us : List α) : List ChunkSpec → Span
  | [] => ⟨0, us.length⟩
  | spec :: specs =>
    let start := (span d us specs).start
    let r := (Segmentation.of spec.kind d (meant d us specs)).range spec
    ⟨start + r.start, start + r.stop⟩

/-- Whether the first chunk that a spec means is there, for each spec. -/
def Addressed (d : Delimiters) (us : List α) : List ChunkSpec → Prop
  | [] => True
  | spec :: specs =>
    let count := (Segmentation.of spec.kind d (meant d us specs)).count
    (spec.clampedBounds count).1 ≤ count ∧ Addressed d us specs

def written (d : Delimiters) (us r : List α) (specs : List ChunkSpec) : List α :=
  us.take (span d us specs).start ++ r ++ us.drop (span d us specs).stop

variable {specs : List ChunkSpec}

theorem exists_cuts (d : Delimiters) (us : List α) (specs : List ChunkSpec) :
    ∃ before after, (span d us specs).Cuts us before (meant d us specs) after := by
  induction specs with
  | nil => exact ⟨[], [], by simp [meant], by simp [span, meant]⟩
  | cons spec specs ih =>
    obtain ⟨before, after, hcuts⟩ := ih
    exact ⟨_, _, hcuts.trans (range_cuts spec d _)⟩

theorem written_nil (r : List α) : written d us r [] = r := by
  simp [written, span]

theorem written_cons (h : Addressed d us (spec :: specs)) (r : List α) :
    written d us r (spec :: specs) =
      written d us (splice d spec .into r (meant d us specs)) specs := by
  obtain ⟨before, after, hcuts⟩ := exists_cuts d us specs
  have hinner := hcuts.trans (range_cuts spec d _)
  rw [written, written, span, hinner.replace, hcuts.replace, splice_into_of_le r h.1]
  simp only [List.append_assoc]

variable [LawfulChunkUnit α]
  (hspecs : ∀ spec ∈ specs, spec.IsSingle ∧ spec.kind.isSeparated = true)

include hspecs

theorem sep_of_mem_meant : ∀ spec ∈ specs, ∀ u ∈ meant d us specs,
    Piece.separates spec.kind d u = false := by
  induction specs with
  | nil => exact List.forall_mem_nil _
  | cons spec specs ih =>
    rw [List.forall_mem_cons] at hspecs
    refine List.forall_mem_cons.2 ⟨Piece.sep_of_mem_extract hspecs.1.2 hspecs.1.1, ?_⟩
    intro other hother u hu
    exact ih hspecs.2 other hother u (List.mem_of_mem_take (List.mem_of_mem_drop hu))

theorem meant_written (h : Addressed d us specs) {r : List α}
    (hr : ∀ spec ∈ specs, Piece.Unbroken (Piece.separates spec.kind d) r) :
    meant d (written d us r specs) specs = r := by
  induction specs generalizing r with
  | nil => exact written_nil r
  | cons spec specs ih =>
    rw [List.forall_mem_cons] at hspecs hr
    -- nothing that parts the outer chunks is in what was there or in what is written
    have hinner : ∀ other ∈ specs, Piece.Unbroken (Piece.separates other.kind d)
        (splice d spec .into r (meant d us specs)) := by
      intro other hother
      have hmeant : ∀ u ∈ meant d us specs, Piece.separates other.kind d u = false :=
        sep_of_mem_meant hspecs.2 other hother
      rw [splice_into_of_le r h.1]
      refine ⟨by simp [hr.1.ne_nil], ?_⟩
      simp only [List.forall_mem_append]
      exact ⟨⟨fun u hu => hmeant u (List.mem_of_mem_take hu), (hr.2 other hother).sep_eq_false⟩,
        fun u hu => hmeant u (List.mem_of_mem_drop hu)⟩
    rw [meant, written_cons h, ih hspecs.2 h.2 hinner]
    exact Piece.extract_splice hspecs.1.2 hspecs.1.1 h.1 hr.1

end Nested

end ScriptValue
