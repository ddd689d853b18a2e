import ScriptValue.Coercion.Convert
import ScriptValue.Date.Reader

namespace ScriptValue

section Except

variable {ε α β : Type} {e : Except ε α} {b : β}

theorem exists_of_map_eq_ok {f : α → β} (h : e.map f = .ok b) : ∃ a, e = .ok a ∧ f a = b := by
  cases e with
  | error => cases h
  | ok a => exact ⟨a, rfl, Except.ok.inj h⟩

theorem exists_of_bind_eq_ok {f : α → Except ε β} (h : e >>= f = .ok b) :
    ∃ a, e = .ok a ∧ f a = .ok b := by
  cases e with
  | error => cases h
  | ok a => exact ⟨a, rfl, h⟩

theorem ok_bind (a : α) (f : α → Except ε β) : .ok a >>= f = f a := rfl

theorem error_bind (x : ε) (f : α → Except ε β) : .error x >>= f = .error x := rfl

end Except

section

variable [DateLibrary]

namespace Kind

def Yields (k : Kind) (v : Value) : Prop :=
  match k with
  | number => v.kind = integer ∨ v.kind = decimal
  | k => v.kind = k

theorem yields_iff {k : Kind} {v : Value} (hk : k ≠ number) : k.Yields v ↔ v.kind = k := by
  cases k with
  | number => exact absurd rfl hk
  | _ => exact Iff.rfl

def hasNoDefault : Kind → Bool
  | boolean | date | container => true
  | _ => false

def Admits (k : Kind) (v : Value) : Prop := k.Yields v ∨ k.hasNoDefault = true ∧ v = .empty

end Kind

def Target.Sound {α : Type} (T : Target α) : Prop := ∀ x, T.kind.Yields (T.toValue x)

theorem Target.sound_number : number.Sound := by
  intro n
  cases n with
  | integer => exact .inl rfl
  | decimal => exact .inr rfl

theorem Container.kind_toValue (c : Container) : c.toValue.kind = .container := by
  cases c <;> rfl

namespace Context

variable {ctx : Context} {k : Kind} {v l r w : Value}

theorem yields_of_map {α : Type} {T : Target α} {e : Except ValueError α}
    (h : e.map T.toValue = .ok w) (hT : T.Sound) : T.kind.Yields w := by
  obtain ⟨x, -, rfl⟩ := exists_of_map_eq_ok h
  exact hT x

theorem yields_of_convertTo (h : ctx.convertTo k v = .ok w) : k.Yields w := by
  cases k with
  | empty =>
    obtain ⟨x, -, hx⟩ := exists_of_bind_eq_ok h
    split at hx
    · cases hx
      rfl
    · cases hx
  | text => exact yields_of_map h fun _ => rfl
  | integer => exact yields_of_map h fun _ => rfl
  | decimal => exact yields_of_map h fun _ => rfl
  | number => exact yields_of_map h Target.sound_number
  | boolean => exact yields_of_map h fun _ => rfl
  | binary => exact yields_of_map h fun _ => rfl
  | dictionary => exact yields_of_map h fun _ => rfl
  | list => exact yields_of_map h fun _ => rfl
  | date => exact yields_of_map h fun _ => rfl
  | container =>
    rw [convertTo] at h
    split at h
    · cases h
      exact Container.kind_toValue _
    · cases h

theorem yields_of_convertEither (h : ctx.convertEither k l r = .ok w) : k.Yields w := by
  obtain ⟨x, -, h⟩ := exists_of_bind_eq_ok h
  split at h
  · exact yields_of_convertTo h
  · obtain ⟨y, -, h⟩ := exists_of_bind_eq_ok h
    split at h
    · exact yields_of_convertTo h
    · cases h

theorem yields_of_convertBothTo (h : ctx.convertBothTo k l r = .ok w) : k.Yields w := by
  cases k with
  | empty => exact yields_of_convertEither h
  | text => exact yields_of_map h fun _ => rfl
  | integer => exact yields_of_map h fun _ => rfl
  | decimal => exact yields_of_map h fun _ => rfl
  | number => exact yields_of_map h Target.sound_number
  | boolean => exact yields_of_map h fun _ => rfl
  | binary => exact yields_of_map h fun _ => rfl
  | dictionary => exact yields_of_map h fun _ => rfl
  | list => exact yields_of_map h fun _ => rfl
  | date => exact yields_of_map h fun _ => rfl
  | container => exact yields_of_convertEither h

theorem convert_empty {α : Type} (ctx : Context) {T : Target α} {x : α}
    (hof : T.ofValue? .empty = none) (hempty : T.ofEmpty? = some x) :
    ctx.convert T .empty = .ok x := by
  change ctx.outer.convertWhole T .empty = _
  simp [Access.convertWhole, hof, hempty, Value.isEmpty]

theorem exists_convertTo_empty (ctx : Context) (hk : k.hasNoDefault = false) :
    ∃ w, ctx.convertTo k .empty = .ok w := by
  have hmap {α : Type} (T : Target α) {x : α} (hof : T.ofValue? .empty = none)
      (hempty : T.ofEmpty? = some x) : ∃ w, (ctx.convert T .empty).map T.toValue = .ok w :=
    ⟨T.toValue x, by rw [convert_empty ctx hof hempty]; rfl⟩
  cases k with
  | empty => exact ⟨.empty, rfl⟩
  | text => exact hmap .text rfl rfl
  | integer => exact hmap .integer rfl rfl
  | decimal => exact hmap .decimal rfl rfl
  | number => exact hmap .number rfl rfl
  | boolean => cases hk
  | binary => exact hmap .binary rfl rfl
  | dictionary => exact hmap .dictionary rfl rfl
  | list => exact hmap .list rfl rfl
  | date => cases hk
  | container => cases hk

theorem admits_default (ctx : Context) (k : Kind) :
    k.Admits ((ctx.convertTo k .empty).toOption.getD .empty) := by
  cases hk : k.hasNoDefault with
  | false =>
    obtain ⟨w, hw⟩ := exists_convertTo_empty ctx hk
    rw [hw]
    exact .inl (yields_of_convertTo hw)
  | true =>
    cases h : ctx.convertTo k .empty with
    | ok w => exact .inl (yields_of_convertTo h)
    | error => exact .inr ⟨hk, rfl⟩

theorem convert_list (ctx : Context) (vs : List Value) : ctx.convert .list (.list vs) = .ok vs := by
  -- lists of one element are the ones that another target would open
  rcases vs with _ | ⟨v, _ | ⟨w, vs⟩⟩
  · rfl
  · rfl
  · rfl

theorem convertTo_kind (ctx : Context) (v : Value) : ctx.convertTo v.kind v = .ok v := by
  cases v with
  | list vs => exact congrArg (Except.map Value.list) (convert_list ctx vs)
  | _ => rfl

theorem convertTo_of_yields (ctx : Context) (h : k.Yields w) : ctx.convertTo k w = .ok w := by
  by_cases hk : k = .number
  · subst hk
    cases w with
    | integer => rfl
    | decimal => rfl
    | _ => rcases h with h | h <;> cases h
  · rw [← (Kind.yields_iff hk).1 h]
    exact convertTo_kind ctx w

/--
Whatever one value or two are turned into is of the kind that was asked for; and the values of a
kind are just those that stay as they are when they are turned into it, whatever the configuration
and the variables are.
-/
theorem convertTo_stable (ctx : Context) :
    (∀ k v w, ctx.convertTo k v = .ok w →
      k.Yields w ∧ ∀ other : Context, other.convertTo k w = .ok w) ∧
    (∀ k l r w, ctx.convertBothTo k l r = .ok w →
      k.Yields w ∧ ∀ other : Context, other.convertTo k w = .ok w) ∧
    (∀ k w, k.Yields w ↔ ctx.convertTo k w = .ok w) ∧
    ∀ v, ctx.convertTo v.kind v = .ok v := by
  refine ⟨fun k v w h => ?_, fun k l r w h => ?_, fun k w => ?_, convertTo_kind ctx⟩
  · have hw : k.Yields w := yields_of_convertTo h
    exact ⟨hw, fun other => convertTo_of_yields other hw⟩
  · have hw : k.Yields w := yields_of_convertBothTo h
    exact ⟨hw, fun other => convertTo_of_yields other hw⟩
  · exact ⟨convertTo_of_yields ctx, yields_of_convertTo⟩

end Context

end

theorem Context.convertTo_stable_number :
    let ctx := Context.ofConfig .standard
    let other : Context := ⟨.standard, fun _ => some (.text ['x'])⟩
    let w := Value.integer (.finite 42)
    ctx.convertTo .number (.list [.list [.text ['4', '2']]]) = .ok w ∧
      ctx.convertBothTo .number (.text ['4']) (.list [.text ['2']]) = .ok w ∧
      Kind.number.Yields w ∧ other.convertTo .number w = .ok w := by
  intro ctx other w
  have hone : ctx.convertTo .number (.list [.list [.text ['4', '2']]]) = .ok w := rfl
  have htwo : ctx.convertBothTo .number (.text ['4']) (.list [.text ['2']]) = .ok w := rfl
  have hw := ((Context.convertTo_stable ctx).1 _ _ _ hone).1
  exact ⟨hone, htwo, hw, ((Context.convertTo_stable ctx).2.1 _ _ _ _ htwo).2 other⟩

end ScriptValue
