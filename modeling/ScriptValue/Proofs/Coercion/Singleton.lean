import ScriptValue.Coercion.Convert
import ScriptValue.Date.Reader
import ScriptValue.Proofs.Coercion.Reading
import Mathlib.Logic.Function.Iterate

namespace ScriptValue

section

variable [DateLibrary]

namespace Target

variable {α : Type}

def ofText (T : Target α) (c : Config) (t : Text) : Except ValueError α :=
  match T.parse? c t with
  | some x => .ok x
  | none => .error (.coercionFailed T.kind)

def given? (T : Target α) (v : Value) : Option α :=
  T.ofValue? v <|> (if v.isEmpty then T.ofEmpty? else none) <|> T.direct? v

structure Serves (T : Target α) (k : Kind) : Prop where
  convertTo_eq : ∀ ctx v, Context.convertTo ctx k v = (ctx.convert T v).map T.toValue
  convertBothTo_eq : ∀ ctx l r,
    Context.convertBothTo ctx k l r = (ctx.convertBoth T l r).map T.toValue
  given?_nil : T.given? (.text []) = T.given? .empty
  opensSingletons_iff : T.opensSingletons = true ↔ k ≠ .list
  given?_list : T.opensSingletons = true → ∀ vs, T.given? (.list vs) = none

theorem serves_text : Serves .text .text :=
  ⟨fun _ _ => rfl, fun _ _ _ => rfl, rfl, iff_of_true rfl nofun, fun _ _ => rfl⟩

theorem serves_integer : Serves .integer .integer :=
  ⟨fun _ _ => rfl, fun _ _ _ => rfl, rfl, iff_of_true rfl nofun, fun _ _ => rfl⟩

theorem serves_decimal : Serves .decimal .decimal :=
  ⟨fun _ _ => rfl, fun _ _ _ => rfl, rfl, iff_of_true rfl nofun, fun _ _ => rfl⟩

theorem serves_number : Serves .number .number :=
  ⟨fun _ _ => rfl, fun _ _ _ => rfl, rfl, iff_of_true rfl nofun, fun _ _ => rfl⟩

theorem serves_boolean : Serves .boolean .boolean :=
  ⟨fun _ _ => rfl, fun _ _ _ => rfl, rfl, iff_of_true rfl nofun, fun _ _ => rfl⟩

theorem serves_binary : Serves .binary .binary :=
  ⟨fun _ _ => rfl, fun _ _ _ => rfl, rfl, iff_of_true rfl nofun, fun _ _ => rfl⟩

theorem serves_dictionary : Serves .dictionary .dictionary :=
  ⟨fun _ _ => rfl, fun _ _ _ => rfl, rfl, iff_of_true rfl nofun, fun _ _ => rfl⟩

theorem serves_list : Serves .list .list :=
  ⟨fun _ _ => rfl, fun _ _ _ => rfl, rfl, iff_of_false Bool.false_ne_true fun h => h rfl, nofun⟩

theorem serves_date : Serves .date .date :=
  ⟨fun _ _ => rfl, fun _ _ _ => rfl, rfl, iff_of_true rfl nofun, fun _ _ => rfl⟩

end Target

theorem Kind.exists_serves {k : Kind} (hempty : k ≠ .empty) (hcontainer : k ≠ .container) :
    ∃ (α : Type) (T : Target α), T.Serves k := by
  cases k with
  | empty => exact absurd rfl hempty
  | text => exact ⟨_, _, Target.serves_text⟩
  | integer => exact ⟨_, _, Target.serves_integer⟩
  | decimal => exact ⟨_, _, Target.serves_decimal⟩
  | number => exact ⟨_, _, Target.serves_number⟩
  | boolean => exact ⟨_, _, Target.serves_boolean⟩
  | binary => exact ⟨_, _, Target.serves_binary⟩
  | dictionary => exact ⟨_, _, Target.serves_dictionary⟩
  | list => exact ⟨_, _, Target.serves_list⟩
  | date => exact ⟨_, _, Target.serves_date⟩
  | container => exact absurd rfl hcontainer

namespace Access

variable {α : Type} {a : Access} {T : Target α} {v : Value} {e : ValueError}

theorem convertWhole_of_some {x : α} (h : T.given? v = some x) : a.convertWhole T v = .ok x := by
  rw [convertWhole, ← Target.given?, h]

theorem convertWhole_of_none (h : T.given? v = none) :
    a.convertWhole T v = a.textOf v >>= T.ofText a.config := by
  rw [convertWhole, ← Target.given?, h]
  rfl

theorem ofText_of_convertWhole (h : a.convertWhole T v = .error e) :
    a.textOf v >>= T.ofText a.config = .error e := by
  cases hv : T.given? v with
  | none => rwa [← convertWhole_of_none hv]
  | some x =>
    rw [convertWhole_of_some hv] at h
    cases h

theorem convertWhole_of_convertValue (hv : v.container? = none)
    (h : a.convertValue T v = .error e) : a.convertWhole T v = .error e := by
  rw [convertValue.eq_def] at h
  split at h
  case h_1 => cases hv
  case h_2 => cases hv
  case h_3 =>
    split at h
    · cases h
    · exact h
  case h_4 => exact h

@[simp] theorem textOf_singleton (a : Access) (v : Value) : a.textOf (.list [v]) = a.textOf v := by
  rw [textOf, texts, texts]
  cases a.textOf v with
  | error => rfl
  | ok t => simp [bind, Except.bind, pure, Except.pure, Except.map]

end Access

namespace Context

variable {α : Type} {ctx : Context} {n : Nat} {T : Target α} {v : Value} {e : ValueError}

theorem ofText_of_convert {c : Container} (h : (ctx.access n).convert T c = .error e) :
    (ctx.access n).text c >>= T.ofText (ctx.access n).config = .error e := by
  cases n with
  | zero => exact h
  | succ n =>
    rw [convert_access_succ] at h
    rw [text_access_succ]
    cases hc : (ctx.access n).resolve c.toValue with
    | error =>
      rw [hc] at h
      exact h
    | ok w =>
      rw [hc] at h
      rw [config_access, ← ctx.config_access n]
      exact Access.ofText_of_convertWhole
        (Access.convertWhole_of_convertValue (Access.container?_of_resolve hc) h)

theorem ofText_of_convertValue (h : (ctx.access n).convertValue T v = .error e) :
    (ctx.access n).textOf v >>= T.ofText (ctx.access n).config = .error e := by
  cases hv : v.container? with
  | none => exact Access.ofText_of_convertWhole (Access.convertWhole_of_convertValue hv h)
  | some c =>
    obtain rfl := Value.eq_toValue hv
    rw [Access.convertValue_toValue] at h
    rw [Access.textOf_toValue, ofText_of_convert h]

/-- A list that fails by its only element fails by its own text, which is that of the element. -/
theorem convertValue_singleton (hlist : ∀ vs, T.given? (.list vs) = none)
    (hopens : T.opensSingletons = true) :
    (ctx.access n).convertValue T (.list [v]) = (ctx.access n).convertValue T v := by
  rw [Access.convertValue, Access.convertOnly, if_pos hopens]
  cases hv : (ctx.access n).convertValue T v with
  | ok x => rfl
  | error e =>
    change (ctx.access n).convertWhole T (.list [v]) = _
    rw [Access.convertWhole_of_none (hlist [v]), Access.textOf_singleton, ofText_of_convertValue hv]

theorem convertTo_wrapped {k : Kind}
    (hk : k ∈ [Kind.text, .integer, .decimal, .number, .boolean, .binary, .dictionary, .date])
    (ctx : Context) (v : Value) (n : Nat) :
    ctx.convertTo k ((fun w => Value.list [w])^[n] v) = ctx.convertTo k v := by
  have hne : k ≠ .empty ∧ k ≠ .container ∧ k ≠ .list := by
    refine ⟨?_, ?_, ?_⟩ <;> (rintro rfl; simp at hk)
  obtain ⟨α, T, hT⟩ := Kind.exists_serves hne.1 hne.2.1
  have hopens : T.opensSingletons = true := hT.opensSingletons_iff.2 hne.2.2
  induction n with
  | zero => rfl
  | succ n ih =>
    rw [Function.iterate_succ_apply', ← ih, hT.convertTo_eq, hT.convertTo_eq]
    exact congrArg _ (convertValue_singleton (hT.given?_list hopens) hopens)

end Context

end

namespace Context

theorem convertTo_wrapped_name :
    let ctx := ofConfig .standard
    Kind.integer ∈ [Kind.text, .integer, .decimal, .number, .boolean, .binary, .dictionary, .date] ∧
      ctx.convertTo .integer (.list [.list [.variable ['x']]]) =
        .error (.coercionFailed .integer) := by
  intro ctx
  have hk : Kind.integer ∈
      [Kind.text, .integer, .decimal, .number, .boolean, .binary, .dictionary, .date] := by decide
  have hx : ctx.convertTo .integer (.variable ['x']) = .error (.coercionFailed .integer) := rfl
  exact ⟨hk, (convertTo_wrapped hk ctx (.variable ['x']) 2).trans hx⟩

end Context

end ScriptValue
