import ScriptValue.Proofs.Chunk.Nested

namespace ScriptValue

namespace Span.Cuts

variable {α : Type} {c : Span} {us before inner after : List α} (h : c.Cuts us before inner after)

include h

theorem at_start : Cuts ⟨c.start, c.start⟩ us before [] (inner ++ after) where
  eq_append := h.eq_append
  eq_lengths := by
    rw [h.eq_lengths]
    rfl

theorem at_stop : Cuts ⟨c.stop, c.stop⟩ us (before ++ inner) [] after where
  eq_append := by rw [h.eq_append, List.append_assoc, List.nil_append]
  eq_lengths := by
    rw [h.eq_lengths, List.length_append]
    rfl

end Span.Cuts

variable {α : Type} [DecidableEq α] [ChunkUnit α] {d : Delimiters} {spec : ChunkSpec} {us : List α}

structure WritesBetween (d : Delimiters) (spec : ChunkSpec) (us before after : List α) : Prop where
  into_eq (r : List α) : splice d spec .into r us = before ++ (r ++ after)
  before_eq (r : List α) :
    splice d spec .before r us = before ++ (r ++ (extract d spec us ++ after))
  after_eq (r : List α) :
    splice d spec .after r us = before ++ (extract d spec us ++ (r ++ after))

theorem exists_splice_of_count_lt (h : (Segmentation.of spec.kind d us).count <
    (spec.clampedBounds (Segmentation.of spec.kind d us).count).1) :
    extract d spec us = [] ∧
      ∃ padding, ∀ preposition r, splice d spec preposition r us = us ++ padding ++ r := by
  refine ⟨?_, _, fun _ _ => if_pos h⟩
  have hrange := Segmentation.range_of_count_lt rfl h
  exact (congrArg (Span.slice · us) hrange).trans List.drop_take_self

section Place

variable (h : (spec.clampedBounds (Segmentation.of spec.kind d us).count).1 ≤
  (Segmentation.of spec.kind d us).count)

include h

theorem splice_eq_place (preposition : Preposition) (r : List α) :
    splice d spec preposition r us =
      us.take ((Segmentation.of spec.kind d us).place spec preposition).start ++ r ++
        us.drop ((Segmentation.of spec.kind d us).place spec preposition).stop :=
  if_neg (Nat.not_lt.2 h)

theorem exists_writesBetween_of_le : ∃ before after,
    us = before ++ (extract d spec us ++ after) ∧ WritesBetween d spec us before after := by
  have hcuts := range_cuts spec d us
  refine ⟨_, _, hcuts.eq_append, fun r => ?_, fun r => ?_, fun r => ?_⟩
  · rw [splice_eq_place h]
    exact hcuts.replace r
  · rw [splice_eq_place h]
    exact hcuts.at_start.replace r
  · rw [splice_eq_place h, ← List.append_assoc]
    exact hcuts.at_stop.replace r

end Place

theorem exists_writesBetween (d : Delimiters) (spec : ChunkSpec) (us : List α) :
    ∃ before after, WritesBetween d spec us before after := by
  cases Nat.lt_or_ge (Segmentation.of spec.kind d us).count _ with
  | inl h =>
    obtain ⟨hread, padding, hwrite⟩ := exists_splice_of_count_lt h
    refine ⟨us ++ padding, [], fun r => ?_, fun r => ?_, fun r => ?_⟩
    all_goals simp [hread, hwrite]
  | inr h =>
    obtain ⟨before, after, -, hwrites⟩ := exists_writesBetween_of_le h
    exact ⟨before, after, hwrites⟩

/--
Chunks read and written in one place: a write at either end of it keeps what is there, and a write
in it leaves all else as it was, where the first chunk meant is there.
-/
structure Coheres (d : Delimiters) (spec : ChunkSpec) (us : List α) : Prop where
  before_eq (r : List α) :
    splice d spec .before r us = splice d spec .into (r ++ extract d spec us) us
  after_eq (r : List α) :
    splice d spec .after r us = splice d spec .into (extract d spec us ++ r) us
  range_within : ((Segmentation.of spec.kind d us).range spec).Within us.length
  slice_range : ((Segmentation.of spec.kind d us).range spec).slice us = extract d spec us
  splice_into : (spec.clampedBounds (Segmentation.of spec.kind d us).count).1 ≤
    (Segmentation.of spec.kind d us).count → ∀ r, splice d spec .into r us =
      us.take ((Segmentation.of spec.kind d us).range spec).start ++ r ++
        us.drop ((Segmentation.of spec.kind d us).range spec).stop
  splice_extract : (spec.clampedBounds (Segmentation.of spec.kind d us).count).1 ≤
    (Segmentation.of spec.kind d us).count → splice d spec .into (extract d spec us) us = us

theorem coheres (d : Delimiters) (spec : ChunkSpec) (us : List α) : Coheres d spec us where
  before_eq r := by
    obtain ⟨before, after, hwrites⟩ := exists_writesBetween d spec us
    rw [hwrites.before_eq, hwrites.into_eq, List.append_assoc]
  after_eq r := by
    obtain ⟨before, after, hwrites⟩ := exists_writesBetween d spec us
    rw [hwrites.after_eq, hwrites.into_eq, List.append_assoc]
  range_within := (Segmentation.ordered_of spec.kind d us).range_within spec
  slice_range := rfl
  splice_into h r := splice_into_of_le r h
  splice_extract h := by
    obtain ⟨before, after, hus, hwrites⟩ := exists_writesBetween_of_le h
    rw [hwrites.into_eq]
    exact hus.symm

end ScriptValue
