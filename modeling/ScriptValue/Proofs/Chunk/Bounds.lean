import ScriptValue.Chunk.Edit
import ScriptValue.Proofs.Chunk.Cut

namespace ScriptValue

structure Span.Within (c : Span) (n : Nat) : Prop where
  start_le_stop : c.start ≤ c.stop
  stop_le : c.stop ≤ n

namespace Piece

variable {α : Type}

@[simp] theorem length_spans (offset : Nat) (ps : List (Piece α)) :
    (spans offset ps).length = ps.length := by
  induction ps generalizing offset with
  | nil => rfl
  | cons p ps ih => simp [spans, ih]

theorem length_units (p : Piece α) :
    p.units.length = p.lead.length + p.body.length + p.close.length := by
  rw [units, List.length_append, List.length_append]

theorem of_mem_spans {offset : Nat} {ps : List (Piece α)} {c : Span} (h : c ∈ spans offset ps) :
    offset ≤ c.start ∧ c.start ≤ c.stop ∧ c.stop ≤ offset + (ps.flatMap units).length := by
  induction ps generalizing offset with
  | nil => simp [spans] at h
  | cons p ps ih =>
    rw [List.flatMap_cons, List.length_append, length_units]
    cases List.mem_cons.1 h with
    | inl hc =>
      subst hc
      refine ⟨?_, ?_, ?_⟩ <;> dsimp only <;> omega
    | inr hc =>
      have hlater := ih hc
      omega

theorem pairwise_spans (offset : Nat) (ps : List (Piece α)) :
    (spans offset ps).Pairwise fun c c' => c.stop ≤ c'.start := by
  induction ps generalizing offset with
  | nil => exact .nil
  | cons p ps ih =>
    refine .cons ?_ (ih _)
    intro c hc
    exact Nat.le_of_add_right_le (of_mem_spans hc).1

theorem slice_append (xs ys zs : List α) :
    Span.slice ⟨xs.length, xs.length + ys.length⟩ (xs ++ (ys ++ zs)) = ys := by
  rw [Span.slice, ← List.append_assoc, ← List.length_append, List.take_left, List.drop_left]

theorem map_slice_spans (before : List α) (ps : List (Piece α)) (rest : List α) :
    (spans before.length ps).map (Span.slice · (before ++ (ps.flatMap units ++ rest))) =
      ps.map body := by
  induction ps generalizing before with
  | nil => rfl
  | cons p ps ih =>
    have hbody : before ++ ((p :: ps).flatMap units ++ rest) =
        (before ++ p.lead) ++ (p.body ++ (p.close ++ (ps.flatMap units ++ rest))) := by
      simp [units]
    have hlater : before ++ ((p :: ps).flatMap units ++ rest) =
        (before ++ p.units) ++ (ps.flatMap units ++ rest) := by
      simp
    have hoffset : before.length + p.lead.length + p.body.length + p.close.length =
        (before ++ p.units).length := by
      rw [List.length_append, length_units]
      omega
    rw [spans, List.map_cons, List.map_cons, hoffset, hlater, ih (before ++ p.units), ← hlater,
      hbody, ← List.length_append, slice_append]

theorem Layout.exists_append {Fits : Piece α → List α → Prop} {Bare : List α → Prop}
    {ps : List (Piece α)} {us : List α} (h : Layout Fits Bare ps us) :
    ∃ rest, us = ps.flatMap units ++ rest := by
  induction h with
  | @nil us _ => exact ⟨us, rfl⟩
  | @cons p ps us _ _ ih =>
    obtain ⟨rest, rfl⟩ := ih
    exact ⟨rest, by simp⟩

end Piece

theorem ChunkSpec.exists_clampedBounds (spec : ChunkSpec) (count : Nat) :
    ∃ first last, spec.clampedBounds count = (first, last) ∧ 1 ≤ first :=
  ⟨_, _, rfl, Nat.le_max_right _ 1⟩

namespace Segmentation

variable {α : Type}

section Numbers

variable {s : Segmentation α} {n : Int}

theorem chunk?_of_nonpos (h : n ≤ 0) : s.chunk? n = none := by
  rw [chunk?, if_pos h]

theorem chunk?_of_pos (h : 1 ≤ n) : s.chunk? n = s.spans[n.toNat - 1]? := by
  rw [chunk?, if_neg (by omega)]

theorem chunk?_of_count_lt (h : s.count < n) : s.chunk? n = none := by
  rw [chunk?_of_pos (by omega), List.getElem?_eq_none_iff]
  change s.count ≤ _
  omega

theorem exists_chunk? (h : 1 ≤ n) (h' : n ≤ s.count) : ∃ c ∈ s.spans, s.chunk? n = some c := by
  have hlt : n.toNat - 1 < s.spans.length := by
    change _ < s.count
    omega
  rw [chunk?_of_pos h, List.getElem?_eq_getElem hlt]
  exact ⟨_, List.getElem_mem hlt, rfl⟩

theorem span_of_chunk? {c : Span} (h : s.chunk? n = some c) : s.span n = c := by
  rw [span, h, Option.getD_some]

theorem span_of_none (h : s.chunk? n = none) : s.span n = ⟨s.start n, s.start n⟩ := by
  rw [span, h, Option.getD_none]

theorem start_eq_span (s : Segmentation α) (n : Int) : s.start n = (s.span n).start := by
  cases h : s.chunk? n with
  | none => rw [span_of_none h]
  | some c => rw [span_of_chunk? h, start, h]

theorem start_of_nonpos (h : n ≤ 0) : s.start n = 0 := by
  rw [start, chunk?_of_nonpos h]
  exact if_neg (by omega)

theorem start_of_count_lt (h : s.count < n) : s.start n = s.length := by
  rw [start, chunk?_of_count_lt h]
  exact if_pos h

theorem stop_of_nonpos (h : n ≤ 0) : s.stop n = 0 := by
  rw [stop, chunk?_of_nonpos h]
  exact if_neg (by omega)

theorem stop_of_count_lt (h : s.count < n) : s.stop n = s.length := by
  rw [stop, chunk?_of_count_lt h]
  exact if_pos h

theorem stop_of_lt (h : 1 ≤ n) (h' : n < s.count) : s.stop n = s.start (n + 1) := by
  obtain ⟨c, -, hc⟩ := exists_chunk? h (Int.le_of_lt h')
  rw [stop, hc]
  exact if_neg (Int.ne_of_lt h')

theorem stop_count (h : 1 ≤ s.count) : s.stop s.count = (s.span s.count).stop := by
  obtain ⟨c, -, hc⟩ := exists_chunk? (s := s) (n := s.count) (by omega) (Int.le_refl _)
  rw [stop, hc, span_of_chunk? hc]
  exact if_pos rfl

end Numbers

section Ranges

variable {s : Segmentation α} {spec : ChunkSpec} {first last : Nat}
  (hb : spec.clampedBounds s.count = (first, last))

include hb

theorem range_of_count_lt (h : s.count < first) : s.range spec = ⟨s.length, s.length⟩ := by
  simp [range, hb, h]

theorem range_of_last_lt (h : first ≤ s.count) (h' : last < first) :
    s.range spec = ⟨(s.span first).start, (s.span first).start⟩ := by
  simp [range, hb, Nat.not_lt.2 h, h']

theorem range_of_le (h : first ≤ s.count) (h' : first ≤ last) :
    s.range spec = ⟨(s.span first).start, (s.span (min last s.count : Nat)).stop⟩ := by
  simp [range, hb, Nat.not_lt.2 h, Nat.not_lt.2 h']

end Ranges

structure Ordered (s : Segmentation α) : Prop where
  within : ∀ c ∈ s.spans, c.Within s.length
  pairwise : s.spans.Pairwise fun c c' => c.stop ≤ c'.start

namespace Ordered

variable {s : Segmentation α} (h : s.Ordered)

include h

theorem span_within (n : Int) : (s.span n).Within s.length := by
  by_cases hpos : n ≤ 0
  · rw [span_of_none (chunk?_of_nonpos hpos), start_of_nonpos hpos]
    exact ⟨Nat.le_refl 0, Nat.zero_le _⟩
  · by_cases hcount : s.count < n
    · rw [span_of_none (chunk?_of_count_lt hcount), start_of_count_lt hcount]
      exact ⟨Nat.le_refl _, Nat.le_refl _⟩
    · obtain ⟨c, hmem, hc⟩ := exists_chunk? (Int.not_le.1 hpos) (Int.not_lt.1 hcount)
      rw [span_of_chunk? hc]
      exact h.within c hmem

theorem stop_le_start {m n : Int} (hm : 1 ≤ m) (hmn : m < n) (hn : n ≤ s.count) :
    (s.span m).stop ≤ (s.span n).start := by
  obtain ⟨c, -, hc⟩ := exists_chunk? hm (Int.le_trans (Int.le_of_lt hmn) hn)
  obtain ⟨c', -, hc'⟩ := exists_chunk? (Int.le_trans hm (Int.le_of_lt hmn)) hn
  rw [span_of_chunk? hc, span_of_chunk? hc']
  rw [chunk?_of_pos hm, List.getElem?_eq_some_iff] at hc
  rw [chunk?_of_pos (by omega), List.getElem?_eq_some_iff] at hc'
  obtain ⟨hlt, rfl⟩ := hc
  obtain ⟨hlt', rfl⟩ := hc'
  exact List.pairwise_iff_getElem.1 h.pairwise _ _ hlt hlt' (by omega)

theorem start_le_stop {m n : Int} (hm : 1 ≤ m) (hmn : m ≤ n) (hn : n ≤ s.count) :
    (s.span m).start ≤ (s.span n).stop := by
  have hm' := (h.span_within m).start_le_stop
  cases Int.lt_or_eq_of_le hmn with
  | inl hlt =>
    calc
      (s.span m).start ≤ (s.span m).stop := hm'
      _ ≤ (s.span n).start := h.stop_le_start hm hlt hn
      _ ≤ (s.span n).stop := (h.span_within n).start_le_stop
  | inr heq => exact heq ▸ hm'

theorem range_within (spec : ChunkSpec) : (s.range spec).Within s.length := by
  obtain ⟨first, last, hb, hfirst⟩ := spec.exists_clampedBounds s.count
  by_cases hcount : s.count < first
  · rw [range_of_count_lt hb hcount]
    exact ⟨Nat.le_refl _, Nat.le_refl _⟩
  · by_cases hlast : last < first
    · rw [range_of_last_lt hb (Nat.not_lt.1 hcount) hlast]
      have hspan := h.span_within first
      exact ⟨Nat.le_refl _, Nat.le_trans hspan.start_le_stop hspan.stop_le⟩
    · rw [range_of_le hb (Nat.not_lt.1 hcount) (Nat.not_lt.1 hlast)]
      exact ⟨h.start_le_stop (by omega) (by omega) (by omega), (h.span_within _).stop_le⟩

theorem place_within (spec : ChunkSpec) (preposition : Preposition) :
    (s.place spec preposition).Within s.length := by
  have hrange := h.range_within spec
  cases preposition with
  | into => exact hrange
  | before => exact ⟨Nat.le_refl _, Nat.le_trans hrange.start_le_stop hrange.stop_le⟩
  | after => exact ⟨Nat.le_refl _, hrange.stop_le⟩

theorem removal_within {spec : ChunkSpec} {c : Span} (hc : s.removal? spec = some c) :
    c.Within s.length := by
  obtain ⟨first, last, hb, hfirst⟩ := spec.exists_clampedBounds s.count
  have hend := (h.span_within s.count).stop_le
  simp only [removal?, hb] at hc
  split at hc
  · cases hc
  · split at hc
    · cases hc
      have hnext := h.span_within (last + 1)
      refine ⟨?_, ?_⟩
      · rw [start_eq_span]
        calc
          (s.span first).start ≤ (s.span last).stop :=
            h.start_le_stop (by omega) (by omega) (by omega)
          _ ≤ (s.span (last + 1)).start := h.stop_le_start (by omega) (by omega) (by omega)
      · rw [start_eq_span]
        exact Nat.le_trans hnext.start_le_stop hnext.stop_le
    · split at hc
      · cases hc
        refine ⟨?_, hend⟩
        calc
          (s.span (first - 1 : Nat)).stop ≤ (s.span first).start :=
            h.stop_le_start (by omega) (by omega) (by omega)
          _ ≤ (s.span s.count).stop := h.start_le_stop (by omega) (by omega) (by omega)
      · cases hc
        exact ⟨h.start_le_stop (by omega) (by omega) (by omega), hend⟩

end Ordered

theorem ordered_of [DecidableEq α] [ChunkUnit α] (kind : ChunkKind) (d : Delimiters)
    (us : List α) : (Segmentation.of kind d us).Ordered := by
  refine ⟨?_, Piece.pairwise_spans 0 _⟩
  intro c hc
  obtain ⟨rest, heq⟩ := ((Piece.reads_cut kind d).layout us).exists_append
  have hmem := Piece.of_mem_spans hc
  refine ⟨hmem.2.1, ?_⟩
  have hlength := congrArg List.length heq
  rw [List.length_append] at hlength
  change c.stop ≤ us.length
  omega

theorem spans_eq_map_span (s : Segmentation α) :
    s.spans = (List.range s.count).map fun i : Nat => s.span (i + 1) := by
  apply List.ext_getElem
  · simp [count]
  · intro i hi hi'
    have hchunk : s.chunk? (i + 1) = some s.spans[i] := by
      rw [chunk?_of_pos (by omega), ← List.getElem?_eq_getElem hi]
      rfl
    rw [List.getElem_map, List.getElem_range, span_of_chunk? hchunk]

theorem map_slice_of [DecidableEq α] [ChunkUnit α] (kind : ChunkKind) (d : Delimiters)
    (us : List α) : (Segmentation.of kind d us).spans.map (Span.slice · us) = chunks kind d us := by
  obtain ⟨rest, heq⟩ := ((Piece.reads_cut kind d).layout us).exists_append
  have hslice := Piece.map_slice_spans [] (Piece.cut kind d us) rest
  rwa [List.nil_append, ← heq] at hslice

theorem chunks_eq_map_get [DecidableEq α] [ChunkUnit α] (kind : ChunkKind) (d : Delimiters)
    (us : List α) :
    chunks kind d us = (List.range (Segmentation.of kind d us).count).map fun i : Nat =>
      (Segmentation.of kind d us).get (i + 1) := by
  rw [← map_slice_of, spans_eq_map_span, List.map_map]
  rfl

/-- Boundaries that agree with one another and stay inside of the sequence. -/
structure Bounded (s : Segmentation α) : Prop where
  span_within (n : Int) : (s.span n).Within s.length
  stop_le_start {m n : Int} : 1 ≤ m → m < n → n ≤ s.count → (s.span m).stop ≤ (s.span n).start
  start_eq (n : Int) : s.start n = (s.span n).start
  stop_eq {n : Int} : 1 ≤ n → n < s.count → s.stop n = s.start (n + 1)
  stop_count : 1 ≤ s.count → s.stop s.count = (s.span s.count).stop
  of_nonpos {n : Int} : n ≤ 0 → s.start n = 0 ∧ s.stop n = 0
  of_count_lt {n : Int} : s.count < n → s.start n = s.length ∧ s.stop n = s.length
  range_within (spec : ChunkSpec) : (s.range spec).Within s.length
  place_within (spec : ChunkSpec) (p : Preposition) : (s.place spec p).Within s.length
  removal_within {spec : ChunkSpec} {c : Span} : s.removal? spec = some c → c.Within s.length

theorem bounded_of [DecidableEq α] [ChunkUnit α] (kind : ChunkKind) (d : Delimiters)
    (us : List α) :
    (Segmentation.of kind d us).Bounded ∧
      chunks kind d us = (List.range (Segmentation.of kind d us).count).map fun i : Nat =>
        (Segmentation.of kind d us).get (i + 1) := by
  have h := ordered_of kind d us
  refine ⟨?_, chunks_eq_map_get kind d us⟩
  exact {
    span_within := h.span_within
    stop_le_start := h.stop_le_start
    start_eq := start_eq_span _
    stop_eq := stop_of_lt
    stop_count := stop_count
    of_nonpos := fun hn => ⟨start_of_nonpos hn, stop_of_nonpos hn⟩
    of_count_lt := fun hn => ⟨start_of_count_lt hn, stop_of_count_lt hn⟩
    range_within := h.range_within
    place_within := h.place_within
    removal_within := h.removal_within }

end Segmentation

end ScriptValue
