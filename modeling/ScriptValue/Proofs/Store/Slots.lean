import ScriptValue.Proofs.Entries
import ScriptValue.Store.Basic

namespace ScriptValue.Store

variable [DateLibrary]

/-- Where a name is found: in a scope that has it, while those further in do not. -/
structure Found (s : Store) (name : Text) (slot : Slot) (inner : List Scope) (scope : Scope)
    (outer : List Scope) : Prop where
  scopes_eq : s.scopes = inner ++ scope :: outer
  get?_eq : scope.get? name.lower = some slot
  inner_eq_none : ∀ x ∈ inner, x.get? name.lower = none

variable {s s' : Store} {name key : Text} {slot : Slot} {inner outer : List Scope} {scope : Scope}

@[simp] theorem config_context (s : Store) : s.context.config = s.config := rfl

@[simp] theorem config_declareSlot (s : Store) (slot : Slot) :
    (s.declareSlot slot).config = s.config := rfl

@[simp] theorem lookup?_context (s : Store) : s.context.lookup? = s.get? := rfl

theorem slot?_singleton (hname : name.lower = name) (kind : Kind) (v : Value) (c : Config) :
    slot? ⟨[(name, ⟨name, kind, v⟩)], [], c⟩ name = some ⟨name, kind, v⟩ := by
  simp [slot?, slotIn?, scopes, Entries.get?, hname]

theorem scopes_of_pop? (h : s.pop? = some s') : s.scopes = s.innermost :: s'.scopes := by
  unfold pop? at h
  split at h
  · cases h
  · cases h
    rw [scopes, ‹s.around = _›]
    rfl

theorem slot?_eq_some_iff :
    s.slot? name = some slot ↔ ∃ inner scope outer, Found s name slot inner scope outer := by
  rw [slot?, slotIn?, List.findSome?_eq_some_iff]
  constructor
  · rintro ⟨inner, scope, outer, heq, hget, hinner⟩
    exact ⟨inner, scope, outer, heq, hget, hinner⟩
  · rintro ⟨inner, scope, outer, h⟩
    exact ⟨inner, scope, outer, h.scopes_eq, h.get?_eq, h.inner_eq_none⟩

theorem changeNearest?_append (change : Scope → Scope)
    (hinner : ∀ x ∈ inner, x.get? key = none) (hscope : scope.get? key = some slot) :
    changeNearest? key change (inner ++ scope :: outer) =
      some (inner ++ change scope :: outer) := by
  induction inner with
  | nil => simp [changeNearest?, Entries.has, hscope]
  | cons x inner ih =>
    rw [List.forall_mem_cons] at hinner
    simp [changeNearest?, Entries.has, hinner.1, ih hinner.2]

theorem changeNearest?_eq_none {scopes : List Scope} (change : Scope → Scope)
    (h : ∀ x ∈ scopes, x.get? key = none) : changeNearest? key change scopes = none := by
  induction scopes with
  | nil => rfl
  | cons x scopes ih =>
    rw [List.forall_mem_cons] at h
    simp [changeNearest?, Entries.has, h.1, ih h.2]

theorem change?_of_slot?_eq_none (h : s.slot? name = none) (change : Scope → Scope) :
    s.change? name change = none := by
  rw [slot?, slotIn?, List.findSome?_eq_none_iff] at h
  rw [change?, changeNearest?_eq_none change h]

theorem Found.change? (h : Found s name slot inner scope outer) (change : Scope → Scope) :
    ∃ s', s.change? name change = some s' ∧ s'.scopes = inner ++ change scope :: outer ∧
      s'.config = s.config := by
  have hchange : changeNearest? name.lower change s.scopes =
      some (inner ++ change scope :: outer) := by
    rw [h.scopes_eq]
    exact changeNearest?_append change h.inner_eq_none h.get?_eq
  cases hinner : inner ++ change scope :: outer with
  | nil => simp at hinner
  | cons innermost around =>
    rw [hinner] at hchange
    exact ⟨{ s with innermost := innermost, around := around }, by rw [Store.change?, hchange],
      rfl, rfl⟩

theorem Found.getD_change? (h : Found s name slot inner scope outer) (change : Scope → Scope)
    (other : Store) :
    ((s.change? name change).getD other).scopes = inner ++ change scope :: outer ∧
      ((s.change? name change).getD other).config = s.config := by
  obtain ⟨s', hchange, hscopes, hconfig⟩ := h.change? change
  rw [hchange, Option.getD_some]
  exact ⟨hscopes, hconfig⟩

theorem Found.put (h : Found s name slot inner scope outer) (kind : Kind) (v : Value) :
    (s.put name kind v).scopes =
        inner ++ scope.insert name.lower { slot with value := v } :: outer ∧
      (s.put name kind v).config = s.config := by
  obtain ⟨hscopes, hconfig⟩ : (s.put name kind v).scopes = _ ∧ (s.put name kind v).config = _ :=
    h.getD_change? _ _
  rw [h.get?_eq] at hscopes
  exact ⟨hscopes, hconfig⟩

theorem put_of_slot?_eq_none (h : s.slot? name = none) (kind : Kind) (v : Value) :
    s.put name kind v = s.declareSlot ⟨name, kind, v⟩ := by
  rw [put, change?_of_slot?_eq_none h, Option.getD_none]

@[simp] theorem config_put (s : Store) (name : Text) (kind : Kind) (v : Value) :
    (s.put name kind v).config = s.config := by
  cases hslot : s.slot? name with
  | none =>
    rw [put_of_slot?_eq_none hslot]
    rfl
  | some slot =>
    obtain ⟨inner, scope, outer, h⟩ := slot?_eq_some_iff.1 hslot
    exact (h.put kind v).2

theorem slot?_put (h : s.slot? name = some slot) (kind : Kind) (v : Value) :
    (s.put name kind v).slot? name = some { slot with value := v } := by
  obtain ⟨inner, scope, outer, h⟩ := slot?_eq_some_iff.1 h
  refine slot?_eq_some_iff.2 ⟨inner, _, outer, (h.put kind v).1, ?_, h.inner_eq_none⟩
  rw [Entries.get?_insert, if_pos rfl]

theorem get?_put (h : s.slot? name = some slot) (kind : Kind) (v : Value) :
    (s.put name kind v).get? name = some v := by
  rw [get?, slot?_put h]
  rfl

theorem kind?_put (h : s.slot? name = some slot) (kind : Kind) (v : Value) :
    (s.put name kind v).kind? name = s.kind? name := by
  rw [kind?, slot?_put h, kind?, h]
  rfl

theorem kindFor_of_slot? (h : s.slot? name = some slot) : s.kindFor name = slot.kind := by
  rw [kindFor, kind?, h]
  rfl

theorem kindFor_of_slot?_eq_none (h : s.slot? name = none) : s.kindFor name = .text := by
  rw [kindFor, kind?, h]
  rfl

theorem slot?_declareSlot (s : Store) (slot : Slot) :
    (s.declareSlot slot).slot? slot.name = some slot := by
  simp [declareSlot, slot?, slotIn?, scopes, Entries.get?_insert]

theorem get?_declareSlot (s : Store) (slot : Slot) :
    (s.declareSlot slot).get? slot.name = some slot.value := by
  rw [get?, slot?_declareSlot]
  rfl

theorem contents_declareSlot (s : Store) (slot : Slot) :
    (s.declareSlot slot).contents slot.name = slot.value := by
  rw [contents, get?_declareSlot]
  rfl

theorem get?_put_self (s : Store) (name : Text) (kind : Kind) (v : Value) :
    (s.put name kind v).get? name = some v := by
  cases hslot : s.slot? name with
  | some slot => exact get?_put hslot kind v
  | none =>
    rw [put_of_slot?_eq_none hslot]
    exact get?_declareSlot s _

theorem put_inj {kind : Kind} {v w : Value} (h : s.put name kind v = s.put name kind w) :
    v = w := by
  have hget := congrArg (get? · name) h
  simpa only [get?_put_self, Option.some.injEq] using hget

theorem ext_scopes (hscopes : s.scopes = s'.scopes) (hconfig : s.config = s'.config) : s = s' := by
  obtain ⟨innermost, around, config⟩ := s
  cases hscopes
  cases hconfig
  rfl

theorem found_declareSlot (s : Store) (slot : Slot) :
    Found (s.declareSlot slot) slot.name slot [] (s.innermost.insert slot.name.lower slot)
      s.around :=
  ⟨rfl, by rw [Entries.get?_insert, if_pos rfl], nofun⟩

theorem put_put (s : Store) (name : Text) (kind : Kind) (v w : Value) :
    (s.put name kind v).put name kind w = s.put name kind w := by
  cases hslot : s.slot? name with
  | none =>
    rw [put_of_slot?_eq_none hslot, put_of_slot?_eq_none hslot]
    refine ext_scopes (((s.found_declareSlot ⟨name, kind, v⟩).put kind w).1.trans ?_) (by simp)
    rw [Entries.insert_insert]
    rfl
  | some slot =>
    obtain ⟨inner, scope, outer, h⟩ := slot?_eq_some_iff.1 hslot
    have hput : Found (s.put name kind v) name { slot with value := v } inner _ outer :=
      ⟨(h.put kind v).1, by rw [Entries.get?_insert, if_pos rfl], h.inner_eq_none⟩
    refine ext_scopes ?_ (by simp)
    rw [(hput.put kind w).1, (h.put kind w).1, Entries.insert_insert]

theorem kindFor_put (s : Store) (name : Text) (v : Value) :
    (s.put name (s.kindFor name) v).kindFor name = s.kindFor name := by
  cases hslot : s.slot? name with
  | none =>
    rw [put_of_slot?_eq_none hslot]
    exact kindFor_of_slot? (s.slot?_declareSlot _)
  | some slot =>
    rw [kindFor_of_slot? (slot?_put hslot _ v), kindFor_of_slot? hslot]

theorem current_put (s : Store) (name : Text) (kind : Kind) (v : Value) :
    (s.put name kind v).current name = v := by
  rw [current, get?_put_self, Option.getD_some]

theorem remove_of_slot?_eq_none (h : s.slot? name = none) : s.remove name = s := by
  rw [remove, change?_of_slot?_eq_none h, Option.getD_none]

theorem Found.remove (h : Found s name slot inner scope outer) :
    (s.remove name).scopes = inner ++ scope.erase name.lower :: outer ∧
      (s.remove name).config = s.config :=
  h.getD_change? _ _

end ScriptValue.Store
