import ScriptValue.Config
import ScriptValue.Proofs.Chunk.Nested

namespace ScriptValue

theorem intercalate_concat {α : Type} (e l : List α) {ls : List (List α)} (h : ls ≠ []) :
    e.intercalate (ls ++ [l]) = e.intercalate ls ++ (e ++ l) := by
  induction ls with
  | nil => exact absurd rfl h
  | cons m ls ih =>
    cases ls with
    | nil => simp [List.intercalate_cons_cons]
    | cons n ls =>
      rw [List.cons_append, List.cons_append, List.intercalate_cons_cons, ← List.cons_append,
        ih (List.cons_ne_nil n ls), List.intercalate_cons_cons]
      simp only [List.append_assoc]

section

variable {α : Type} [DecidableEq α]

def rejoined (ls : List (List α)) : List (List α) :=
  if ls.getLast? = some [] then ls.dropLast else ls

theorem rejoined_singleton (l : List α) : rejoined [l] = if l = [] then [] else [l] := by
  simp [rejoined]

theorem rejoined_concat_nil (ls : List (List α)) : rejoined (ls ++ [[]]) = ls := by
  simp [rejoined]

theorem rejoined_cons_cons (l m : List α) (ls : List (List α)) :
    rejoined (l :: m :: ls) = l :: rejoined (m :: ls) := by
  rw [rejoined, rejoined, List.getLast?_cons_cons, List.dropLast_cons_cons, apply_ite (List.cons l)]

theorem rejoined_sublist (ls : List (List α)) : (rejoined ls).Sublist ls := by
  unfold rejoined
  split
  · exact List.dropLast_sublist ls
  · exact List.Sublist.refl ls

theorem rejoined_eq_self_iff {ls : List (List α)} :
    rejoined ls = ls ↔ ls.getLast? ≠ some [] := by
  unfold rejoined
  split
  case isTrue h =>
    refine iff_of_false (fun heq => ?_) (not_not.2 h)
    have hlength := congrArg List.length heq
    cases ls with
    | nil => cases h
    | cons l ls => simp at hlength
  case isFalse h => exact iff_of_true rfl h

theorem intercalate_rejoined_eq_iff {e : List α} (he : e ≠ []) {ls : List (List α)} :
    e.intercalate (rejoined ls) = e.intercalate ls ↔ ls.getLast? ≠ some [] ∨ ls.length ≤ 1 := by
  by_cases hlast : ls.getLast? = some []
  · obtain ⟨init, rfl⟩ := List.getLast?_eq_some_iff.1 hlast
    rw [rejoined_concat_nil]
    cases init with
    | nil => simp
    | cons l ls =>
      rw [intercalate_concat e [] (List.cons_ne_nil l ls)]
      refine iff_of_false (by simp [he]) ?_
      rw [not_or, not_not]
      exact ⟨hlast, by simp⟩
  · rw [rejoined_eq_self_iff.2 hlast]
    exact iff_of_true rfl (.inl hlast)

end

namespace Piece

variable {α : Type} [ChunkUnit α] {e : List α}

/-- A line ends with `e`, whatever comes next: no break at all, or a line that ends with `e`. -/
def Breaks (e : List α) : Prop :=
  ∀ rest, (∀ u ∈ rest.head?, ChunkUnit.isLineBreak u = false ∨ u ∈ e.head?) → LineEnd e rest

theorem Breaks.ne_nil (h : Breaks e) : e ≠ [] := by
  rintro rfl
  cases h [] (by simp)

theorem head?_intercalate (he : e ≠ []) {lines : List (List α)}
    (h : ∀ l ∈ lines, ∀ u ∈ l, ChunkUnit.isLineBreak u = false) :
    ∀ u ∈ (e.intercalate lines).head?, ChunkUnit.isLineBreak u = false ∨ u ∈ e.head? := by
  intro u hu
  cases lines with
  | nil => simp at hu
  | cons l lines =>
    cases l with
    | cons v l =>
      left
      refine h (v :: l) List.mem_cons_self u (List.mem_of_head? ?_)
      cases lines with
      | nil => simpa using hu
      | cons m lines => simpa [List.intercalate_cons_cons] using hu
    | nil =>
      cases lines with
      | nil => simp at hu
      | cons m lines =>
        right
        rwa [List.intercalate_cons_cons, List.nil_append, List.head?_append_of_ne_nil _ he] at hu

theorem lines_of_unbroken {l : List α} (hne : l ≠ [])
    (h : ∀ u ∈ l, ChunkUnit.isLineBreak u = false) : lines l = [⟨[], l, []⟩] := by
  have hp : Terminated ChunkUnit.isLineBreak LineEnd ⟨[], l, []⟩ [] := .last h hne
  simpa [units, lines] using reads_lines.step hp

theorem lines_append_intercalate (he : Breaks e) {l m : List α} {ls : List (List α)}
    (hl : ∀ u ∈ l, ChunkUnit.isLineBreak u = false)
    (h : ∀ l ∈ m :: ls, ∀ u ∈ l, ChunkUnit.isLineBreak u = false) :
    lines (e.intercalate (l :: m :: ls)) = ⟨[], l, e⟩ :: lines (e.intercalate (m :: ls)) := by
  have hend : LineEnd e (e.intercalate (m :: ls)) := he _ (head?_intercalate he.ne_nil h)
  have hp : Terminated ChunkUnit.isLineBreak LineEnd ⟨[], l, e⟩ (e.intercalate (m :: ls)) :=
    .mk hl hend
  rw [List.intercalate_cons_cons, ← reads_lines.step hp]
  rfl

theorem map_body_lines_intercalate [DecidableEq α] (he : Breaks e) {ls : List (List α)}
    (h : ∀ l ∈ ls, ∀ u ∈ l, ChunkUnit.isLineBreak u = false) :
    (lines (e.intercalate ls)).map body = rejoined ls := by
  induction ls with
  | nil => simp [lines, rejoined]
  | cons l ls ih =>
    rw [List.forall_mem_cons] at h
    cases ls with
    | nil =>
      rw [List.intercalate_singleton, rejoined_singleton]
      split
      case isTrue hl => rw [hl, lines, List.map_nil]
      case isFalse hl => rw [lines_of_unbroken hl h.1, List.map_singleton]
    | cons m ls =>
      rw [lines_append_intercalate he h.1 h.2, List.map_cons, ih h.2, rejoined_cons_cons]

end Piece

theorem LineEnding.breaks (ending : LineEnding) : Piece.Breaks ending.text := by
  intro rest hrest
  cases ending with
  | lf => exact .single rfl fun h => by simp [ChunkUnit.isReturn] at h
  | crlf => exact .pair rfl rfl
  | cr =>
    refine .single rfl fun _ u hu => ?_
    cases hrest u hu with
    | inl h =>
      refine Bool.eq_false_iff.2 fun hfeed => ?_
      rw [LawfulChunkUnit.isLineBreak_of_isFeed u hfeed] at h
      cases h
    | inr h =>
      obtain rfl : '\r' = u := Option.some.inj h
      rfl

theorem chunks_intercalate (ending : LineEnding) (d : Delimiters) {ls : List Text}
    (h : ∀ l ∈ ls, ∀ c ∈ l, ChunkUnit.isLineBreak c = false) :
    chunks .line d (ending.text.intercalate ls) = rejoined ls :=
  Piece.map_body_lines_intercalate ending.breaks h

end ScriptValue
