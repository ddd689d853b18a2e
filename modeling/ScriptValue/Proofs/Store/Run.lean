import ScriptValue.Proofs.Coercion.Kinds
import ScriptValue.Proofs.Store.Slots
import ScriptValue.Store.Container
import ScriptValue.Store.Sort

namespace ScriptValue

variable [DateLibrary]

inductive Operation where
  | push
  | pop
  | declare (name : Text) (kind : Option Kind) (initial : Option Value)
  | set (name : Text) (v : Value)
  | prepend (name : Text) (v : Value)
  | append (name : Text) (v : Value)
  | assign (name : Text) (v : Value) (preposition : Preposition)
  | remove (name : Text)
  | sort (name : Text) (style : SortStyle) (direction : SortDirection)
  | sortChunks (name : Text) (order : Value → Value → Ordering)
  | write (target v : Value) (preposition : Preposition)
  | delete (target : Value)
  | configure (c : Config)

def Value.rootName? : Value → Option Text
  | .variable name => some name
  | .part parent _ => parent.rootName?
  | _ => none

def Operation.target? : Operation → Option Text
  | .set name _ | .prepend name _ | .append name _ | .assign name _ _ => some name
  | .sort name _ _ | .sortChunks name _ => some name
  | .write target _ _ | .delete target => target.rootName?
  | _ => none

namespace Store

def perform (s : Store) : Operation → Except ValueError Store
  | .push => .ok s.push
  | .pop => .ok (s.pop?.getD s)
  | .declare name kind initial => s.declare name kind initial
  | .set name v => s.set name v
  | .prepend name v => s.prepend name v
  | .append name v => s.append name v
  | .assign name v preposition => s.assign name v preposition
  | .remove name => .ok (s.remove name)
  | .sort name style direction => s.sort name style direction
  | .sortChunks name order => s.sortChunks name order
  | .write target v preposition => s.write target v preposition
  | .delete target => s.delete target
  | .configure c => .ok { s with config := c }

def after (s : Store) (o : Operation) : Store := (s.perform o).toOption.getD s

def run (s : Store) (os : List Operation) : Store := os.foldl after s

/-- All that an operation can do to a store. -/
inductive Change (s : Store) : Store → Prop where
  | none : Change s s
  | push : Change s s.push
  | pop {s'} (h : s.pop? = some s') : Change s s'
  | declare {slot} (h : slot.kind.Admits slot.value) : Change s (s.declareSlot slot)
  | put (name) {v} (h : (s.kindFor name).Yields v) : Change s (s.put name (s.kindFor name) v)
  | remove (name) : Change s (s.remove name)
  | configure (c) : Change s { s with config := c }

variable {s s' : Store} {name : Text} {v target : Value} {p : Preposition}

theorem exists_put_of_bind {e : Except ValueError Value}
    (he : ∀ {w}, e = .ok w → (s.kindFor name).Yields w)
    (h : (do return s.put name (s.kindFor name) (← e)) = Except.ok s') :
    ∃ w, (s.kindFor name).Yields w ∧ s' = s.put name (s.kindFor name) w := by
  obtain ⟨w, hw, heq⟩ := exists_of_bind_eq_ok h
  exact ⟨w, he hw, (Except.ok.inj heq).symm⟩

theorem exists_put_of_assign (h : s.assign name v p = .ok s') :
    ∃ w, (s.kindFor name).Yields w ∧ s' = s.put name (s.kindFor name) w := by
  cases p with
  | into => exact exists_put_of_bind Context.yields_of_convertTo h
  | before => exact exists_put_of_bind Context.yields_of_convertBothTo h
  | after => exact exists_put_of_bind Context.yields_of_convertBothTo h

theorem exists_assign_of_write (h : s.write target v p = .ok s') :
    ∃ name w p, target.rootName? = some name ∧ s.assign name w p = .ok s' := by
  induction target, v, p using Store.write.induct with
  | case1 v p name => exact ⟨name, v, p, rfl, h⟩
  | case2 v p parent address ih =>
    -- the parent is written with another value, so `ih` is for every value
    obtain ⟨updated, -, h⟩ := exists_of_bind_eq_ok h
    split at h
    · exact ih updated h
    · cases h
  | case3 => cases h
  | case4 v p target hvariable hpart htext =>
    rw [write] at h
    · cases h
    all_goals assumption

theorem exists_assign_of_delete (h : s.delete target = .ok s') :
    ∃ name w p, target.rootName? = some name ∧ s.assign name w p = .ok s' := by
  unfold delete at h
  split at h
  case h_1 name => exact ⟨name, .empty, .into, rfl, h⟩
  case h_2 parent address =>
    obtain ⟨updated, -, h⟩ := exists_of_bind_eq_ok h
    split at h
    · obtain ⟨name, w, p, hroot, h⟩ := exists_assign_of_write h
      exact ⟨name, w, p, hroot, h⟩
    · cases h
  case h_3 => cases h
  case h_4 => cases h

theorem exists_put_of_rearrange {arrange : Arrangement} (h : s.rearrange name arrange = .ok s') :
    ∃ w, (s.kindFor name).Yields w ∧ s' = s.put name (s.kindFor name) w := by
  unfold rearrange at h
  split at h
  · obtain ⟨v, -, h⟩ := exists_of_bind_eq_ok h
    obtain ⟨w, -, hset⟩ : ∃ w, _ ∧ s.set name w = .ok s' := exists_of_bind_eq_ok h
    exact exists_put_of_assign (p := .into) hset
  · cases h

theorem exists_put_of_perform {o : Operation} (ho : o.target? = some name)
    (h : s.perform o = .ok s') :
    ∃ w, (s.kindFor name).Yields w ∧ s' = s.put name (s.kindFor name) w := by
  cases o with
  | set =>
    cases ho
    exact exists_put_of_assign (p := .into) h
  | prepend =>
    cases ho
    exact exists_put_of_assign (p := .before) h
  | append =>
    cases ho
    exact exists_put_of_assign (p := .after) h
  | assign =>
    cases ho
    exact exists_put_of_assign h
  | sort =>
    cases ho
    exact exists_put_of_rearrange h
  | sortChunks =>
    cases ho
    exact exists_put_of_rearrange h
  | write =>
    obtain ⟨name', w, p, hroot, h⟩ := exists_assign_of_write h
    cases hroot.symm.trans ho
    exact exists_put_of_assign h
  | delete =>
    obtain ⟨name', w, p, hroot, h⟩ := exists_assign_of_delete h
    cases hroot.symm.trans ho
    exact exists_put_of_assign h
  | _ => cases ho

theorem exists_declareSlot_of_declare {kind : Option Kind} {initial : Option Value}
    (h : s.declare name kind initial = .ok s') :
    ∃ slot : Slot, slot.kind.Admits slot.value ∧ s' = s.declareSlot slot := by
  unfold declare at h
  cases initial with
  | some v =>
    obtain ⟨w, hw, heq⟩ := exists_of_bind_eq_ok h
    cases heq
    exact ⟨_, .inl (Context.yields_of_convertTo hw), rfl⟩
  | none =>
    cases h
    exact ⟨_, s.context.admits_default _, rfl⟩

theorem change_of_perform {o : Operation} (h : s.perform o = .ok s') : s.Change s' := by
  cases ho : o.target? with
  | some name =>
    obtain ⟨w, hw, rfl⟩ := exists_put_of_perform ho h
    exact .put name hw
  | none =>
    cases o with
    | push =>
      cases h
      exact .push
    | pop =>
      cases h
      cases hpop : s.pop? with
      | none => exact .none
      | some s' => exact .pop hpop
    | declare =>
      obtain ⟨slot, hslot, rfl⟩ := exists_declareSlot_of_declare h
      exact .declare hslot
    | remove name =>
      cases h
      exact .remove name
    | configure c =>
      cases h
      exact .configure c
    | write =>
      -- what has no root is not written
      obtain ⟨name, w, p, hroot, -⟩ := exists_assign_of_write h
      cases hroot.symm.trans ho
    | delete =>
      obtain ⟨name, w, p, hroot, -⟩ := exists_assign_of_delete h
      cases hroot.symm.trans ho
    | _ => cases ho

theorem change_after (s : Store) (o : Operation) : s.Change (s.after o) := by
  rw [after]
  cases h : s.perform o with
  | error => exact .none
  | ok s' => exact change_of_perform h

theorem run_induction {P : Store → Prop} (hchange : ∀ {s s'}, P s → s.Change s' → P s')
    (hs : P s) (os : List Operation) : P (s.run os) := by
  induction os generalizing s with
  | nil => exact hs
  | cons o os ih => exact ih (hchange hs (s.change_after o))

end Store

end ScriptValue
