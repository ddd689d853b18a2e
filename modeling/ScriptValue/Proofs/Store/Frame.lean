import ScriptValue.Proofs.Store.Procedure

namespace ScriptValue

variable [DateLibrary]

namespace Store

def slotAt? (s : Store) (i : Nat) (key : Text) : Option Slot := s.scopes[i]?.bind (Entries.get? key)

structure DiffersAt (s s' : Store) (i : Nat) (key : Text) : Prop where
  depth_eq : s'.depth = s.depth
  config_eq : s'.config = s.config
  slotAt?_eq : ∀ j k, (j, k) ≠ (i, key) → s'.slotAt? j k = s.slotAt? j k

/-- What becomes of a store where a variable is given a value. -/
inductive Assigned (s s' : Store) (name : Text) : Prop
  | changed (i : Nat) (slot : Slot) (v : Value) (differs : s.DiffersAt s' i name.lower)
      (nearest : ∀ j < i, s.slotAt? j name.lower = none)
      (slot_eq : s.slotAt? i name.lower = some slot)
      (slot_eq' : s'.slotAt? i name.lower = some { slot with value := v })
  | added (t : Text) (differs : s.DiffersAt s' 0 name.lower)
      (undeclared : ∀ j, s.slotAt? j name.lower = none)
      (slot_eq' : s'.slotAt? 0 name.lower = some ⟨name, .text, .text t⟩)

variable {s s' : Store} {name key : Text} {slot : Slot} {v w : Value} {inner outer : List Scope}
  {scope : Scope} {o : Operation}

theorem slotAt?_of_scopes (h : s.scopes = inner ++ scope :: outer) (key : Text) :
    s.slotAt? inner.length key = scope.get? key := by
  simp [slotAt?, h]

theorem slotAt?_congr {new : Scope} (h : s.scopes = inner ++ scope :: outer)
    (h' : s'.scopes = inner ++ new :: outer) {j : Nat} (hj : j ≠ inner.length) (key : Text) :
    s'.slotAt? j key = s.slotAt? j key := by
  rw [slotAt?, slotAt?, h, h']
  cases Nat.lt_or_gt_of_ne hj with
  | inl hlt => rw [List.getElem?_append_left hlt, List.getElem?_append_left hlt]
  | inr hgt =>
    obtain ⟨m, rfl⟩ := Nat.exists_eq_add_of_lt hgt
    simp [List.getElem?_append_right, Nat.add_assoc]

theorem slotAt?_eq_none (h : s.scopes = inner ++ outer)
    (hinner : ∀ x ∈ inner, x.get? key = none) {j : Nat} (hj : j < inner.length) :
    s.slotAt? j key = none := by
  rw [slotAt?, h, List.getElem?_append_left hj, List.getElem?_eq_getElem hj]
  exact hinner _ (List.getElem_mem hj)

theorem differsAt_of_scopes (h : s.scopes = inner ++ scope :: outer)
    (h' : s'.scopes = inner ++ scope.insert key slot :: outer) (hconfig : s'.config = s.config) :
    s.DiffersAt s' inner.length key := by
  refine ⟨by simp [depth, h, h'], hconfig, fun j k hne => ?_⟩
  by_cases hj : j = inner.length
  · subst hj
    rw [slotAt?_of_scopes h, slotAt?_of_scopes h', Entries.get?_insert, if_neg]
    rintro rfl
    exact hne rfl
  · exact slotAt?_congr h h' hj k

theorem slotAt?_of_slot?_eq_none (h : s.slot? name = none) (j : Nat) :
    s.slotAt? j name.lower = none := by
  rw [slot?, slotIn?, List.findSome?_eq_none_iff] at h
  rw [slotAt?, Option.bind_eq_none_iff]
  exact fun x hx => h x (List.mem_of_getElem? hx)

theorem assigned_put (hw : (s.kindFor name).Yields w) :
    s.Assigned (s.put name (s.kindFor name) w) name := by
  cases hslot : s.slot? name with
  | some slot =>
    obtain ⟨inner, scope, outer, hfound⟩ := slot?_eq_some_iff.1 hslot
    obtain ⟨hscopes, hconfig⟩ := hfound.put (s.kindFor name) w
    refine .changed inner.length slot w (differsAt_of_scopes hfound.scopes_eq hscopes hconfig)
      (fun j hj => slotAt?_eq_none hfound.scopes_eq hfound.inner_eq_none hj) ?_ ?_
    · rw [slotAt?_of_scopes hfound.scopes_eq, hfound.get?_eq]
    · rw [slotAt?_of_scopes hscopes, Entries.get?_insert, if_pos rfl]
  | none =>
    rw [kindFor_of_slot?_eq_none hslot] at hw ⊢
    obtain ⟨t, rfl⟩ : ∃ t, w = .text t := by
      cases w with
      | text t => exact ⟨t, rfl⟩
      | _ => cases hw
    rw [put_of_slot?_eq_none hslot]
    have hscopes : s.scopes = [] ++ s.innermost :: s.around := rfl
    have hscopes' : (s.declareSlot ⟨name, .text, .text t⟩).scopes =
        [] ++ s.innermost.insert name.lower ⟨name, .text, .text t⟩ :: s.around := rfl
    refine .added t (differsAt_of_scopes hscopes hscopes' rfl)
      (slotAt?_of_slot?_eq_none hslot) ?_
    exact (slotAt?_of_scopes hscopes' _).trans ((Entries.get?_insert ..).trans (if_pos rfl))

theorem assigned_of_perform (ho : o.target? = some name) (h : s.perform o = .ok s') :
    s.Assigned s' name := by
  obtain ⟨w, hw, rfl⟩ := exists_put_of_perform ho h
  exact assigned_put hw

theorem exists_error_of_write {target : Value} (h : target.rootName? = none) (s : Store)
    (v : Value) (p : Preposition) : ∃ e, s.write target v p = .error e := by
  cases hwrite : s.write target v p with
  | error e => exact ⟨e, rfl⟩
  | ok s' =>
    obtain ⟨name, w, p, hroot, -⟩ := exists_assign_of_write hwrite
    cases h.symm.trans hroot

theorem exists_error_of_delete {target : Value} (h : target.rootName? = none) (s : Store) :
    ∃ e, s.delete target = .error e := by
  cases hdelete : s.delete target with
  | error e => exact ⟨e, rfl⟩
  | ok s' =>
    obtain ⟨name, w, p, hroot, -⟩ := exists_assign_of_delete hdelete
    cases h.symm.trans hroot

/--
An operation that fails has changed nothing when it does. One that assigns to a variable and
succeeds has changed one slot: the value of the nearest variable of that name, or a text variable
that is new in the innermost scope. Parts of values that are in no variable are never written or
deleted.
-/
theorem runOn_atomic (s : Store) (o : Operation) :
    let after := (Procedure.ofOperation o).runOn s
    after = Procedure.settled s (s.perform o) ∧
      (∀ e, after.1 = .error e → after.2 = s) ∧
      (∀ name, o.target? = some name → after.1 = .ok () → s.Assigned after.2 name) ∧
      (∀ target : Value, target.rootName? = none →
        (o = .delete target ∨ ∃ v p, o = .write target v p) → ∃ e, after.1 = .error e) := by
  intro after
  have hafter : after = Procedure.settled s (s.perform o) := Procedure.runOn_ofOperation o s
  rw [hafter]
  refine ⟨rfl, ?_, ?_, ?_⟩
  · intro e he
    cases h : s.perform o with
    | error => rfl
    | ok s' =>
      rw [h] at he
      cases he
  · intro name hname hok
    cases h : s.perform o with
    | error =>
      rw [h] at hok
      cases hok
    | ok s' => exact assigned_of_perform hname h
  · rintro target htarget (rfl | ⟨v, p, rfl⟩)
    · obtain ⟨e, he⟩ := exists_error_of_delete htarget s
      exact ⟨e, by rw [perform, he]; rfl⟩
    · obtain ⟨e, he⟩ := exists_error_of_write htarget s v p
      exact ⟨e, by rw [perform, he]; rfl⟩

end Store

end ScriptValue
