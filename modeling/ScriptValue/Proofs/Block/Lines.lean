import ScriptValue.Proofs.Block.KeyLine
import Mathlib.Data.List.DropRight

namespace ScriptValue.Block

theorem notMem_of_mem_splitOn {line t : Text} (h : line ∈ t.splitOn '\n') : '\n' ∉ line := by
  induction t generalizing line with
  | nil => simp_all
  | cons c t ih =>
    obtain ⟨l, ls, ht⟩ := List.exists_cons_of_ne_nil (List.splitOn_ne_nil '\n' t)
    by_cases hc : c = '\n'
    · simp only [List.splitOn_cons_eq_if_modifyHead, hc, beq_self_eq_true, if_true,
        List.mem_cons] at h
      rcases h with rfl | h
      · exact List.not_mem_nil
      · exact ih h
    · simp only [List.splitOn_cons_eq_if_modifyHead, beq_iff_eq, hc, if_false, ht,
        List.modifyHead_cons, List.mem_cons] at h
      rcases h with rfl | h
      · simpa [Ne.symm hc] using ih (ht ▸ List.mem_cons_self)
      · exact ih (ht ▸ List.mem_cons_of_mem l h)

theorem splitOn_append_of_notMem {s : Text} (t : Text) (h : '\n' ∉ s) :
    (s ++ t).splitOn '\n' = (t.splitOn '\n').modifyHead (s ++ ·) := by
  induction s with
  | nil =>
    rw [List.nil_append]
    cases t.splitOn '\n' <;> rfl
  | cons c s ih =>
    rw [List.mem_cons, not_or] at h
    rw [List.cons_append, List.splitOn_cons_eq_if_modifyHead, ih h.2]
    cases t.splitOn '\n' <;> simp [Ne.symm h.1]

theorem splitOn_intercalate_flatMap {ts : List Text} (h : ts ≠ []) :
    (['\n'].intercalate ts).splitOn '\n' = ts.flatMap (·.splitOn '\n') := by
  induction ts with
  | nil => exact absurd rfl h
  | cons t ts ih =>
    cases ts with
    | nil => simp
    | cons u ts =>
      rw [List.intercalate_cons_cons, List.append_assoc, List.singleton_append,
        List.splitOn_append_cons_self, ih (List.cons_ne_nil u ts)]
      simp only [List.flatMap_cons]

inductive Shorter : List Text → List Text → Prop
  | nil {ms} : Shorter [] ms
  | cons {l m ls ms} : l <+: m → Shorter ls ms → Shorter (l :: ls) (m :: ms)

namespace Shorter

theorem tail {ls ms : List Text} (h : Shorter ls ms) : Shorter ls.tail ms.tail := by
  cases h with
  | nil => exact .nil
  | cons _ h => exact h

theorem exists_prefix {ls ms : List Text} (h : Shorter ls ms) {l : Text} (hl : l ∈ ls) :
    ∃ m ∈ ms, l <+: m := by
  induction h with
  | nil => simp at hl
  | @cons k m ls ms hp _ ih =>
    rcases List.mem_cons.1 hl with rfl | hl
    · exact ⟨m, List.mem_cons_self, hp⟩
    · obtain ⟨m', hm', hp'⟩ := ih hl
      exact ⟨m', List.mem_cons_of_mem m hm', hp'⟩

theorem splitOn_cons {s t : Text} (c : Char) (h : Shorter (s.splitOn '\n') (t.splitOn '\n')) :
    Shorter ((c :: s).splitOn '\n') ((c :: t).splitOn '\n') := by
  simp only [List.splitOn_cons_eq_if_modifyHead]
  generalize s.splitOn '\n' = ls, t.splitOn '\n' = ms at h
  split
  · exact .cons List.prefix_rfl h
  · cases h with
    | nil => exact .nil
    | cons hp h => exact .cons (List.cons_prefix_cons.2 ⟨rfl, hp⟩) h

theorem splitOn_append (s t : Text) : Shorter (s.splitOn '\n') ((s ++ t).splitOn '\n') := by
  induction s with
  | nil =>
    obtain ⟨l, ls, ht⟩ := List.exists_cons_of_ne_nil (List.splitOn_ne_nil '\n' t)
    rw [List.splitOn_nil, List.nil_append, ht]
    exact .cons List.nil_prefix .nil
  | cons c s ih => exact ih.splitOn_cons c

theorem splitOn_unifyBreaks (t : Text) :
    Shorter ((unifyBreaks t).splitOn '\n') (t.splitOn '\n') := by
  induction t using unifyBreaks.induct with
  | case1 t ih =>
    simp only [unifyBreaks, List.splitOn_cons_eq_if_modifyHead, beq_self_eq_true, if_true]
    exact .cons List.nil_prefix ih
  | case2 c t hpair ih =>
    rw [unifyBreaks]
    · exact ih.splitOn_cons c
    · exact hpair
  | case3 => exact .cons List.prefix_rfl .nil

end Shorter

/-- No line of the text after its first starts an entry, so that the text is one value. -/
def Continues (t : Text) : Prop := ∀ line ∈ (t.splitOn '\n').tail, keyLine line = none

theorem Continues.of_shorter {s t : Text} (h : Continues t)
    (hs : Shorter (s.splitOn '\n') (t.splitOn '\n')) : Continues s := by
  intro line hline
  obtain ⟨longer, hlonger, hp⟩ := hs.tail.exists_prefix hline
  exact keyLine_eq_none_of_prefix hp (h longer hlonger)

theorem Continues.unifyBreaks {t : Text} (h : Continues t) : Continues (unifyBreaks t) :=
  h.of_shorter (.splitOn_unifyBreaks t)

theorem Continues.trimBreaks {t : Text} (h : Continues t) : Continues (trimBreaks t) := by
  obtain ⟨rest, hrest⟩ : t.rdropWhile isBreak <+: t := List.rdropWhile_prefix isBreak t
  have hs := Shorter.splitOn_append (t.rdropWhile isBreak) rest
  rw [hrest] at hs
  exact h.of_shorter hs

theorem trimBreaks_trimBreaks (t : Text) : trimBreaks (trimBreaks t) = trimBreaks t :=
  List.rdropWhile_idempotent isBreak t

theorem trimBreaks_eq_self_iff {t : Text} :
    trimBreaks t = t ↔ ∀ c ∈ t.getLast?, isBreak c = false := by
  refine List.rdropWhile_eq_self_iff.trans ⟨fun h c hc => ?_, fun h hne => ?_⟩
  · obtain ⟨hne, rfl⟩ := List.mem_getLast?_eq_getLast hc
    simpa using h hne
  · simpa using h _ (List.getLast_mem_getLast? hne)

theorem trimBreaks_append_singleton (t : Text) {c : Char} (h : isBreak c = false) :
    trimBreaks (t ++ [c]) = t ++ [c] := List.rdropWhile_concat_neg isBreak t c (by simp [h])

end ScriptValue.Block
