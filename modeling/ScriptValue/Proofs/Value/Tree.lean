import ScriptValue.Proofs.Entries
import ScriptValue.Value.Basic

namespace ScriptValue.Value

variable [DateLibrary]

/-- A text that satisfies `P`, or a dictionary of such trees in which each key stands once. -/
inductive Tree (P : Text → Prop) : Value → Prop
  | text {t} : P t → Tree P (.text t)
  | dictionary {es : Dictionary} : es.keys.Nodup → (∀ e ∈ es, Tree P e.2) → Tree P (.dictionary es)

namespace Tree

variable {P Q : Text → Prop}

theorem imp {v : Value} (hPQ : ∀ t, P t → Q t) (h : Tree P v) : Tree Q v := by
  induction h with
  | text ht => exact .text (hPQ _ ht)
  | dictionary hn _ ih => exact .dictionary hn ih

theorem and {v : Value} (hP : Tree P v) (hQ : Tree Q v) : Tree (fun t => P t ∧ Q t) v := by
  induction hP with
  | text ht =>
    cases hQ with
    | text ht' => exact .text ⟨ht, ht'⟩
  | dictionary hn _ ih =>
    cases hQ with
    | dictionary _ hes => exact .dictionary hn fun e he => ih e he (hes e he)

end Tree

theorem sameEntries_iff {es fs : Dictionary} :
    sameEntries es fs = true ↔ ∀ e ∈ es, ∃ w, fs.get? e.1 = some w ∧ e.2.same w = true := by
  induction es with
  | nil => simp [sameEntries]
  | cons e es ih =>
    rw [sameEntries, Bool.and_eq_true, ih, List.forall_mem_cons]
    cases fs.get? e.1 <;> simp

theorem Tree.same_self {P : Text → Prop} {v : Value} (h : Tree P v) : v.same v = true := by
  induction h with
  | text => simp [same]
  | @dictionary es hn _ ih =>
    rw [same, beq_self_eq_true, Bool.true_and, sameEntries_iff]
    exact fun e he => ⟨e.2, Entries.get?_of_mem hn he, ih e he⟩

end ScriptValue.Value
