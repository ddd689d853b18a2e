import ScriptValue.Proofs.Entries
import ScriptValue.Proofs.Store.Run

namespace ScriptValue

variable [DateLibrary]

structure Slot.Typed (slot : Slot) (key : Text) : Prop where
  key_eq : key = slot.name.lower
  admits : slot.kind.Admits slot.value

def Scope.Typed (scope : Scope) : Prop := ∀ key slot, (key, slot) ∈ scope → slot.Typed key

namespace Scope.Typed

theorem nil : Scope.Typed [] := fun _ _ hmem => absurd hmem List.not_mem_nil

variable {scope : Scope} {key : Text} {slot : Slot} (h : Scope.Typed scope)

include h

theorem insert (hslot : slot.Typed key) : Scope.Typed (Entries.insert key slot scope) := by
  intro key' slot' hmem
  cases Entries.mem_of_mem_insert hmem with
  | inl heq =>
    cases heq
    exact hslot
  | inr hmem => exact h key' slot' hmem

theorem erase (key : Text) : Scope.Typed (Entries.erase key scope) :=
  fun key' slot' hmem => h key' slot' (Entries.mem_of_mem_erase hmem)

end Scope.Typed

namespace Store

def Typed (s : Store) : Prop := ∀ scope ∈ s.scopes, Scope.Typed scope

variable {s s' : Store} {name : Text} {slot : Slot} {inner outer : List Scope} {scope : Scope}

theorem Typed.of_scopes_eq (h : s.Typed) (heq : s.scopes = inner ++ scope :: outer) {new : Scope}
    (hnew : Scope.Typed scope → Scope.Typed new) (heq' : s'.scopes = inner ++ new :: outer) :
    s'.Typed := by
  rw [Typed, heq, List.forall_mem_append, List.forall_mem_cons] at h
  rw [Typed, heq', List.forall_mem_append, List.forall_mem_cons]
  exact ⟨h.1, hnew h.2.1, h.2.2⟩

theorem Typed.declareSlot (h : s.Typed) (hslot : slot.kind.Admits slot.value) :
    (s.declareSlot slot).Typed :=
  h.of_scopes_eq (List.nil_append _).symm (fun hscope => hscope.insert ⟨rfl, hslot⟩)
    (List.nil_append _).symm

theorem Typed.put (h : s.Typed) {v : Value} (hv : (s.kindFor name).Yields v) :
    (s.put name (s.kindFor name) v).Typed := by
  cases hslot : s.slot? name with
  | none =>
    rw [put_of_slot?_eq_none hslot]
    exact h.declareSlot (.inl hv)
  | some slot =>
    obtain ⟨inner, scope, outer, hfound⟩ := slot?_eq_some_iff.1 hslot
    -- the slot that is changed is the one whose kind the value was turned into
    rw [kindFor_of_slot? hslot] at hv
    refine h.of_scopes_eq hfound.scopes_eq (fun hscope => hscope.insert ⟨?_, .inl hv⟩)
      (hfound.put _ v).1
    exact (hscope _ _ (Entries.mem_of_get? hfound.get?_eq)).key_eq

theorem Typed.remove (h : s.Typed) (name : Text) : (s.remove name).Typed := by
  cases hslot : s.slot? name with
  | none => rwa [remove_of_slot?_eq_none hslot]
  | some slot =>
    obtain ⟨inner, scope, outer, hfound⟩ := slot?_eq_some_iff.1 hslot
    exact h.of_scopes_eq hfound.scopes_eq (fun hscope => hscope.erase _) hfound.remove.1

theorem Typed.change (h : s.Typed) (hs : s.Change s') : s'.Typed := by
  cases hs with
  | none => exact h
  | push => exact List.forall_mem_cons.2 ⟨.nil, h⟩
  | pop hpop =>
    rw [Typed, scopes_of_pop? hpop] at h
    exact (List.forall_mem_cons.1 h).2
  | declare hslot => exact h.declareSlot hslot
  | put name hv => exact h.put hv
  | remove name => exact h.remove name
  | configure c => exact h

theorem typed_run (c : Config) (os : List Operation) :
    1 ≤ ((ofConfig c).run os).depth ∧ ((ofConfig c).run os).Typed := by
  have hstart : (ofConfig c).Typed := List.forall_mem_singleton.2 .nil
  exact ⟨Nat.succ_pos _, run_induction Typed.change hstart os⟩

end Store

end ScriptValue
