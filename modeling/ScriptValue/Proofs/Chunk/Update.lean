import ScriptValue.Date.Reader
import ScriptValue.Proofs.Chunk.Extend
import ScriptValue.Value.Elements

namespace ScriptValue

def ChunkSpec.IsForward (spec : ChunkSpec) (count : Nat) : Prop :=
  (spec.clampedBounds count).1 ≤ count →
    (spec.clampedBounds count).1 ≤ (spec.clampedBounds count).2

instance (spec : ChunkSpec) (count : Nat) : Decidable (spec.IsForward count) :=
  inferInstanceAs (Decidable (_ → _))

section

variable [DateLibrary]

namespace Elements

variable {spec : ChunkSpec} {vs : List Value} {first last : Nat}
  (hb : spec.clampedBounds vs.length = (first, last)) (v : Value)

include hb

theorem splice_into_of_le (h : first ≤ vs.length) (h' : first ≤ last) :
    splice spec .into v vs = vs.take (first - 1) ++ v :: vs.drop (min last vs.length) := by
  simp only [splice, range, hb, Nat.not_lt.2 h, Nat.not_lt.2 h', if_false]

theorem splice_into_of_length_lt (h : vs.length < first) :
    splice spec .into v vs =
      vs ++ (List.replicate (first - vs.length - 1) .empty ++ [v]) := by
  simp only [splice, hb, h, if_true, List.append_assoc, Nat.sub_right_comm]

end Elements

variable {α : Type} [DecidableEq α] [ChunkUnit α]

/--
Values and units that the same writes lead to, from values that read as the chunks of the units:
each value goes into the list, and what it reads as into the chunks.
-/
inductive Edited (kind : ChunkKind) (d : Delimiters) (read : Value → List α) :
    List Value → List α → Prop where
  | start {vs us} (h : vs.map read = chunks kind d us) : Edited kind d read vs us
  | write {vs us spec v} (h : Edited kind d read vs us) (hkind : spec.kind = kind)
      (hforward : spec.IsForward vs.length)
      (hbody : Piece.Unbroken (Piece.separates kind d) (read v)) :
      Edited kind d read (Elements.splice spec .into v vs) (splice d spec .into (read v) us)

namespace Piece

variable {spec : ChunkSpec} {d : Delimiters} {read : Value → List α} {vs : List Value} {us : List α}
  {u : α}

theorem count_of_map_eq (h : vs.map read = chunks spec.kind d us) :
    (Segmentation.of spec.kind d us).count = vs.length := by
  rw [length_chunks, ← h, List.length_map]

theorem map_splice_eq_chunks [LawfulChunkUnit α] (hkind : spec.kind.isDelimited = true)
    (hu : separator? spec.kind d = some u) (hread : read .empty = [])
    (h : vs.map read = chunks spec.kind d us) (hforward : spec.IsForward vs.length) {v : Value}
    (hbody : Unbroken (separates spec.kind d) (read v)) :
    (Elements.splice spec .into v vs).map read =
      chunks spec.kind d (splice d spec .into (read v) us) := by
  have hcount := count_of_map_eq h
  obtain ⟨first, last, hb, -⟩ := spec.exists_clampedBounds vs.length
  have hb' : spec.clampedBounds (Segmentation.of spec.kind d us).count = (first, last) := by
    rw [hcount, hb]
  by_cases hle : first ≤ vs.length
  · have hlast : first ≤ last := by
      rw [ChunkSpec.IsForward, hb] at hforward
      exact hforward hle
    have hsep : spec.kind.isSeparated = true := by
      revert hkind
      cases spec.kind <;> decide
    rw [Elements.splice_into_of_le hb v hle hlast,
      chunks_splice_of_le hsep hbody hb' (by rwa [hcount]) hlast, ← h, hcount]
    simp only [List.map_append, List.map_cons, List.map_take, List.map_drop]
  · have hlt := Nat.not_le.1 hle
    rw [Elements.splice_into_of_length_lt hb v hlt,
      chunks_splice_of_isDelimited hkind hu hb' (by rwa [hcount]) hbody, ← h, hcount]
    simp only [List.map_append, List.map_cons, List.map_nil, List.map_replicate, hread]

end Piece

theorem Edited.map_eq_chunks [LawfulChunkUnit α] {kind : ChunkKind} {d : Delimiters}
    {read : Value → List α} {u : α} (hkind : kind.isDelimited = true)
    (hu : Piece.separator? kind d = some u) (hread : read .empty = []) {vs : List Value}
    {us : List α} (h : Edited kind d read vs us) : vs.map read = chunks kind d us := by
  induction h with
  | start h => exact h
  | write _ hspec hforward hbody ih =>
    subst hspec
    exact Piece.map_splice_eq_chunks hkind hu hread ih hforward hbody

/--
Writes into chunks are writes into the list of chunks: in the place of the chunks meant, or behind
as many empty chunks as are missing before the chunk meant.
-/
structure WritesAsList (α : Type) [DecidableEq α] [ChunkUnit α] (kind : ChunkKind)
    (d : Delimiters) : Prop where
  replace {spec : ChunkSpec} {us r : List α} {first last : Nat} : spec.kind = kind →
    spec.clampedBounds (Segmentation.of kind d us).count = (first, last) →
    first ≤ (Segmentation.of kind d us).count → first ≤ last →
    Piece.Unbroken (Piece.separates kind d) r →
    chunks kind d (splice d spec .into r us) =
      (chunks kind d us).take (first - 1) ++ r ::
        (chunks kind d us).drop (min last (Segmentation.of kind d us).count)
  extend {spec : ChunkSpec} {us r : List α} {u : α} {first last : Nat} : kind.isDelimited = true →
    Piece.separator? kind d = some u → spec.kind = kind →
    spec.clampedBounds (Segmentation.of kind d us).count = (first, last) →
    (Segmentation.of kind d us).count < first → Piece.Unbroken (Piece.separates kind d) r →
    chunks kind d (splice d spec .into r us) = chunks kind d us ++
      (List.replicate (first - (Segmentation.of kind d us).count - 1) [] ++ [r])
  edited {read : Value → List α} {vs : List Value} {us : List α} {u : α} :
    kind.isDelimited = true → Piece.separator? kind d = some u → read .empty = [] →
    Edited kind d read vs us → vs.map read = chunks kind d us

theorem writesAsList [LawfulChunkUnit α] {kind : ChunkKind} (hkind : kind.isSeparated = true)
    (d : Delimiters) : WritesAsList α kind d where
  replace := by
    rintro spec us r first last rfl hb hcount hle hr
    exact Piece.chunks_splice_of_le hkind hr hb hcount hle
  extend := by
    rintro spec us r u first last hdelimited hu rfl hb hcount hr
    exact Piece.chunks_splice_of_isDelimited hdelimited hu hb hcount hr
  edited hdelimited hu hread h := h.map_eq_chunks hdelimited hu hread

end

theorem writesAsList_items :
    let read : Value → Text := fun v => v.text?.getD []
    let added : ChunkSpec := ⟨.item, .nth 4, none⟩
    ChunkKind.item.isSeparated = true ∧
      chunks .item .standard (splice .standard ⟨.item, .nth 2, some .last⟩ .into ['x']
        ['a', ',', 'b', ',', 'c', ',']) = [['a'], ['x']] ∧
      chunks .item .standard (splice .standard added .into ['x'] ['a', ',', 'b', ',']) =
        [['a'], ['b'], [], ['x']] ∧
      (Elements.splice added .into (.text ['x']) [.text ['a'], .text ['b']]).map read =
        chunks .item .standard (splice .standard added .into ['x'] ['a', ',', 'b']) := by
  intro read added
  have h : WritesAsList Char .item .standard := writesAsList rfl .standard
  have hx : Piece.Unbroken (Piece.separates .item .standard) ['x'] :=
    ⟨by decide, List.forall_mem_singleton.2 rfl⟩
  have hstart : Edited .item .standard read [.text ['a'], .text ['b']] ['a', ',', 'b'] :=
    .start (by decide)
  have hforward : added.IsForward [Value.text ['a'], .text ['b']].length := by decide
  have hwritten := Edited.write hstart rfl hforward (v := .text ['x']) hx
  exact ⟨rfl, h.replace rfl rfl (by decide) (by decide) hx,
    h.extend rfl rfl rfl rfl (by decide) hx, h.edited rfl rfl rfl hwritten⟩

end ScriptValue
