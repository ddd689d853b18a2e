import ScriptValue.Proofs.Chunk.Separators
import Mathlib.Logic.Function.Iterate

namespace ScriptValue

variable {α : Type} [DecidableEq α] [ChunkUnit α]

def deleteFirst (kind : ChunkKind) (d : Delimiters) (us : List α) : List α :=
  delete d ⟨kind, .nth 1, none⟩ us

namespace Segmentation

open Piece

section First

variable {kind : ChunkKind} {d : Delimiters} {us : List α}

theorem clampedBounds_first (kind : ChunkKind) (count : Nat) :
    (⟨kind, .nth 1, none⟩ : ChunkSpec).clampedBounds count = (1, 1) := rfl

variable [DistinctBreaks α] (hkind : kind.padsWhenExtended = true)

include hkind

theorem take_removal_first {c : Span}
    (hc : (Segmentation.of kind d us).removal? ⟨kind, .nth 1, none⟩ = some c) :
    us.take c.start = [] := by
  obtain ⟨Closes, h⟩ := exists_closedBy (α := α) hkind d
  have hb := clampedBounds_first kind (Segmentation.of kind d us).count
  have hcount : 1 ≤ (Segmentation.of kind d us).count := by
    refine Nat.not_lt.1 fun hnone => ?_
    rw [removal?_eq_none hb (.inl hnone)] at hc
    cases hc
  have hstart : c.start = ((Segmentation.of kind d us).span 1).start := by
    by_cases hlast : 1 < (Segmentation.of kind d us).count
    · rw [removal?_of_lt hb (Nat.le_refl 1) hlast] at hc
      rw [← Option.some.inj hc]
      rfl
    · rw [removal?_all hb rfl hcount (Nat.not_lt.1 hlast)] at hc
      rw [← Option.some.inj hc]
  have hi : 0 < (cut kind d us).length := by rwa [← length_cut]
  obtain ⟨_, hp, -, hlies⟩ := exists_lies (cut_eq_append hi)
  rw [h.fits_eq] at hp
  rw [hstart]
  exact hlies.take_start.trans hp.lead_eq_nil

theorem joinsBreak_first :
    (Segmentation.of kind d us).joinsBreak ⟨kind, .nth 1, none⟩ = false := by
  rw [joinsBreak]
  cases hremoval : (Segmentation.of kind d us).removal? ⟨kind, .nth 1, none⟩ with
  | none => rfl
  | some c =>
    have htake : (Segmentation.of kind d us).units.take c.start = [] :=
      take_removal_first hkind hremoval
    rw [Option.any_some, joins, htake, List.getLast?_nil, Option.any_none, Bool.and_false,
      Bool.false_and]

variable (d us) in
theorem exists_deleteFirst_eq_drop : ∃ n, deleteFirst kind d us = us.drop n := by
  cases hremoval : (Segmentation.of kind d us).removal? ⟨kind, .nth 1, none⟩ with
  | none =>
    refine ⟨0, ?_⟩
    rw [deleteFirst, ScriptValue.delete, delete, hremoval]
    rfl
  | some c =>
    refine ⟨c.stop, ?_⟩
    rw [deleteFirst, delete_of_removal? hremoval, take_removal_first hkind hremoval,
      List.nil_append]

theorem chunks_eq_nil_iff : chunks kind d us = [] ↔ us = [] := by
  obtain ⟨Closes, h⟩ := exists_closedBy (α := α) hkind d
  constructor
  · intro hchunks
    have hcut : cut kind d us = [] := List.map_eq_nil_iff.1 hchunks
    have hlayout := h.reads.eq_iff.1 hcut
    cases hlayout with
    | nil hbare => exact hbare
  · rintro rfl
    rw [chunks, h.reads.bare rfl, List.map_nil]

variable (d us) in
theorem chunks_deleteFirst :
    chunks kind d (deleteFirst kind d us) =
      if (Segmentation.of kind d us).count = 1 ∧ (Segmentation.of kind d us).isClosed = true
      then [[]] else (chunks kind d us).tail := by
  have hb := clampedBounds_first kind (Segmentation.of kind d us).count
  have hlength := length_chunks kind d us
  rcases Nat.lt_trichotomy (Segmentation.of kind d us).count 1 with hcount | hcount | hcount
  · rw [if_neg fun h => Nat.ne_of_lt hcount h.1]
    have hnil : chunks kind d us = [] := List.length_eq_zero_iff.1 (by omega)
    rw [deleteFirst, delete_eq_self hb (.inl hcount), hnil, List.tail_nil]
  · have htail : (chunks kind d us).tail = [] := List.length_eq_zero_iff.1 (by simp; omega)
    have hchunks := chunks_delete_of_le hb hkind rfl (Nat.le_of_eq hcount.symm)
      (Nat.le_of_eq hcount)
    rw [deleteFirst, hchunks, htail]
    simp only [hcount, true_and]
  · rw [if_neg fun h => Nat.ne_of_gt hcount h.1, ← List.drop_one]
    have hjoined := joined_chunks_delete hb hkind (Nat.le_refl 1) hcount (Nat.le_refl 1)
    rw [joinsBreak_first hkind] at hjoined
    exact hjoined.eq_append

theorem deleteFirst_ne_nil (hclosed : (Segmentation.of kind d us).isClosed = true) :
    deleteFirst kind d us ≠ [] := by
  intro hnil
  have hchunks := chunks_deleteFirst d us hkind
  rw [(chunks_eq_nil_iff hkind).2 hnil] at hchunks
  have hpos : 0 < (chunks kind d us).length := by
    rw [List.length_pos_iff, Ne, chunks_eq_nil_iff hkind]
    rintro rfl
    cases hclosed
  split at hchunks
  case isTrue => cases hchunks
  case isFalse hmany =>
    have hlength := congrArg List.length hchunks
    rw [List.length_nil, List.length_tail] at hlength
    rw [length_chunks] at hmany
    exact hmany ⟨by omega, hclosed⟩

theorem isClosed_deleteFirst :
    (Segmentation.of kind d (deleteFirst kind d us)).isClosed =
      (Segmentation.of kind d us).isClosed := by
  obtain ⟨n, hn⟩ := exists_deleteFirst_eq_drop d us hkind
  by_cases hnil : deleteFirst kind d us = []
  · rw [hnil, Bool.eq_false_iff.2 fun hclosed => deleteFirst_ne_nil hkind hclosed hnil]
    rfl
  · -- the last unit is still the last one
    have hlast : (us.drop n).getLast? = us.getLast? := by
      rw [List.getLast?_drop, if_neg fun hle => hnil (hn.trans (List.drop_eq_nil_of_le hle))]
    rw [isClosed_eq hkind, isClosed_eq hkind, hn, hlast]

theorem chunks_iterate_deleteFirst (hopen : (Segmentation.of kind d us).isClosed = false)
    (n : Nat) : chunks kind d ((deleteFirst kind d)^[n] us) = (chunks kind d us).drop n := by
  induction n generalizing us with
  | zero => rfl
  | succ n ih =>
    have hchunks := chunks_deleteFirst d us hkind
    rw [if_neg fun h => Bool.eq_false_iff.1 hopen h.2] at hchunks
    rw [Function.iterate_succ_apply, ih ((isClosed_deleteFirst hkind).trans hopen), hchunks,
      List.drop_tail]

theorem isClosed_iterate_deleteFirst (n : Nat) :
    (Segmentation.of kind d ((deleteFirst kind d)^[n] us)).isClosed =
      (Segmentation.of kind d us).isClosed := by
  induction n generalizing us with
  | zero => rfl
  | succ n ih => rw [Function.iterate_succ_apply, ih, isClosed_deleteFirst hkind]

theorem exists_iterate_deleteFirst_iff :
    (∃ n, chunks kind d ((deleteFirst kind d)^[n] us) = []) ↔
      (Segmentation.of kind d us).isClosed = false := by
  constructor
  · rintro ⟨n, hn⟩
-- no deletion takes the separator that closes the last chunk
    rw [← isClosed_iterate_deleteFirst hkind n, (chunks_eq_nil_iff hkind).1 hn]
    rfl
  · intro hopen
    refine ⟨(chunks kind d us).length, ?_⟩
    rw [chunks_iterate_deleteFirst hkind hopen, List.drop_length]

end First

/--
A deletion of chunks that are parted by separators leaves fewer chunks, but not where the only one
is closed. The others are read as before, but not where a return and a feed come together and lines
that are not empty follow. And a sequence is emptied by deletions of its first chunk if it does not
end with a separator.
-/
theorem delete_with_separator [DistinctBreaks α] (d : Delimiters) (spec : ChunkSpec) (us : List α)
    (hkind : spec.kind.padsWhenExtended = true) :
    let s := Segmentation.of spec.kind d us
    let left := Segmentation.of spec.kind d (ScriptValue.delete d spec us)
    let first := (spec.clampedBounds s.count).1
    let last := (spec.clampedBounds s.count).2
    (first ≤ s.count → first ≤ last →
      (left.count < s.count ↔ ¬ (s.count = 1 ∧ s.isClosed = true)) ∧
      ((∀ m : Int, 1 ≤ m → left.get m =
          if m < first then s.get m else s.get (m + (min last s.count - first + 1 : Nat))) ↔
        s.joinsBreak spec = false ∨ ∀ n : Int, last < n → s.get n = []) ∧
      (s.joinsBreak spec = false →
        ReadAlike (chunks spec.kind d (ScriptValue.delete d spec us))
          ((chunks spec.kind d us).take (first - 1) ++ (chunks spec.kind d us).drop last))) ∧
    ((∃ n, chunks spec.kind d ((deleteFirst spec.kind d)^[n] us) = []) ↔ s.isClosed = false) := by
  intro s left first last
  have hb : spec.clampedBounds s.count = (first, last) := rfl
  have hfirst : 1 ≤ first := Nat.le_max_right _ 1
  refine ⟨fun hcount hle => ⟨?_, ?_, fun hjoins => ?_⟩, exists_iterate_deleteFirst_iff hkind⟩
  · exact count_delete_lt_iff hb hkind hfirst hcount hle
  · exact get_delete_iff hb hkind hfirst hcount hle
  · exact readAlike_delete hb hkind hfirst hcount hle (.inl hjoins)

theorem delete_with_separator_joined :
    let us : Text := ['a', '\r', 'b', '\n', '\n', 'c']
    let spec : ChunkSpec := ⟨.line, .nth 2, none⟩
    let s := Segmentation.of .line .standard us
    let left := Segmentation.of .line .standard (ScriptValue.delete .standard spec us)
    spec.kind.padsWhenExtended = true ∧ 2 ≤ s.count ∧ left.count < s.count ∧
      s.joinsBreak spec = true ∧
      (¬ ∀ m : Int, 1 ≤ m → left.get m =
        if m < 2 then s.get m else s.get (m + (min 2 s.count - 2 + 1 : Nat))) ∧
      ∃ n, chunks .line .standard ((deleteFirst .line .standard)^[n] us) = [] := by
  intro us spec s left
  obtain ⟨hleft, hempty⟩ := delete_with_separator .standard spec us rfl
  have hcount : 2 ≤ s.count := by decide
  obtain ⟨hlt, hget, -⟩ := hleft hcount (by decide)
  have hjoins : s.joinsBreak spec = true := by decide
  refine ⟨rfl, hcount, hlt.2 (by decide), hjoins, fun hread => ?_, hempty.2 (by decide)⟩
  cases hget.1 hread with
  | inl hnot => exact absurd hjoins (Bool.eq_false_iff.1 hnot)
  | inr hnil => exact absurd (hnil 4 (by decide)) (by decide)

theorem deleteFirst_closed :
    let us : Text := ['a', ',']
    let spec : ChunkSpec := ⟨.item, .nth 1, none⟩
    let s := Segmentation.of .item .standard us
    let left := Segmentation.of .item .standard (ScriptValue.delete .standard spec us)
    spec.clampedBounds s.count = (1, 1) ∧ 1 ≤ s.count ∧ ¬ left.count < s.count ∧
      ∀ n, chunks .item .standard ((deleteFirst .item .standard)^[n] us) ≠ [] := by
  intro us spec s left
  have hcomma : deleteFirst .item .standard ([','] : Text) = [','] := by decide
  refine ⟨rfl, by decide, by decide, fun n => ?_⟩
  cases n with
  | zero => decide
  | succ n =>
    have hstep : deleteFirst .item .standard us = [','] := by decide
    rw [Function.iterate_succ_apply, hstep, Function.iterate_fixed hcomma]
    decide

end Segmentation

end ScriptValue
