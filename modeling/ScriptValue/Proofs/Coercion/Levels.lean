import ScriptValue.Proofs.Coercion.Singleton

namespace ScriptValue

section Results

variable {α β : Type} {r r' : Except ValueError α}

/-- The first result is the second, unless there were too few levels for it. -/
def ExtendsTo (r r' : Except ValueError α) : Prop := r = .error .tooDeep ∨ r = r'

theorem extendsTo_tooDeep : ExtendsTo (.error .tooDeep) r := .inl rfl

theorem extendsTo_rfl : ExtendsTo r r := .inr rfl

theorem ExtendsTo.bind (h : ExtendsTo r r') {f f' : α → Except ValueError β}
    (hf : ∀ x, ExtendsTo (f x) (f' x)) : ExtendsTo (r >>= f) (r' >>= f') := by
  cases h with
  | inl h =>
    rw [h]
    exact extendsTo_tooDeep
  | inr h =>
    subst h
    cases r with
    | error => exact extendsTo_rfl
    | ok x => exact hf x

theorem ExtendsTo.map (h : ExtendsTo r r') (f : α → β) : ExtendsTo (r.map f) (r'.map f) := by
  cases h with
  | inl h =>
    rw [h]
    exact extendsTo_tooDeep
  | inr h =>
    rw [h]
    exact extendsTo_rfl

end Results

variable [DateLibrary]

def Target.Opens {α : Type} (T : Target α) : Prop :=
  T.opensSingletons = true → ∀ vs, T.given? (.list vs) = none

namespace Access

structure Below (a b : Access) : Prop where
  config_eq : a.config = b.config
  read : ∀ c, ExtendsTo (a.read c) (b.read c)
  text : ∀ c, ExtendsTo (a.text c) (b.text c)
  convert : ∀ {α : Type} {T : Target α}, T.Opens → ∀ c, ExtendsTo (a.convert T c) (b.convert T c)

variable {α : Type} {a b : Access}

theorem Below.resolveWithin (h : Below a b) (n : Nat) (v : Value) :
    ExtendsTo (a.resolveWithin n v) (b.resolveWithin n v) := by
  induction n generalizing v with
  | zero => exact extendsTo_rfl
  | succ n ih =>
    rw [Access.resolveWithin, Access.resolveWithin]
    cases v.container? with
    | none => exact extendsTo_rfl
    | some c => exact (h.read c).bind ih

theorem Below.resolve (h : Below a b) (v : Value) : ExtendsTo (a.resolve v) (b.resolve v) :=
  h.resolveWithin maxDepth v

mutual
theorem Below.textOf (h : Below a b) : (v : Value) → ExtendsTo (a.textOf v) (b.textOf v)
  | .empty => extendsTo_rfl
  | .text _ => extendsTo_rfl
  | .integer n => by
    rw [Access.textOf, Access.textOf, h.config_eq]
    exact extendsTo_rfl
  | .decimal d => by
    rw [Access.textOf, Access.textOf, h.config_eq]
    exact extendsTo_rfl
  | .boolean _ => extendsTo_rfl
  | .binary _ => extendsTo_rfl
  | .dictionary es => (h.entryTexts es).map Block.render
  | .list vs => by
    rw [Access.textOf, Access.textOf, h.config_eq]
    exact (h.texts vs).map _
  | .date d => by
    rw [Access.textOf, Access.textOf, h.config_eq]
    exact extendsTo_rfl
  | .variable name => h.text (.variable name)
  | .part parent address => h.text (.part parent address)
termination_by structural v => v

theorem Below.texts (h : Below a b) : (vs : List Value) → ExtendsTo (a.texts vs) (b.texts vs)
  | [] => extendsTo_rfl
  | v :: vs => (h.textOf v).bind fun _ => (h.texts vs).bind fun _ => extendsTo_rfl
termination_by structural vs => vs

theorem Below.entryTexts (h : Below a b) :
    (es : List (Text × Value)) → ExtendsTo (a.entryTexts es) (b.entryTexts es)
  | [] => extendsTo_rfl
  | (_, v) :: es => (h.textOf v).bind fun _ => (h.entryTexts es).bind fun _ => extendsTo_rfl
termination_by structural es => es
end

theorem Below.convertWhole (h : Below a b) (T : Target α) (v : Value) :
    ExtendsTo (a.convertWhole T v) (b.convertWhole T v) := by
  cases hv : T.given? v with
  | some x =>
    rw [convertWhole_of_some hv, convertWhole_of_some hv]
    exact extendsTo_rfl
  | none =>
    rw [convertWhole_of_none hv, convertWhole_of_none hv, h.config_eq]
    exact (h.textOf v).bind fun _ => extendsTo_rfl

end Access

namespace Context

variable {α : Type} {ctx : Context} {n : Nat} {T : Target α}

theorem below_convertValue (h : (ctx.access n).Below (ctx.access (n + 1))) (hT : T.Opens) :
    (v : Value) →
      ExtendsTo ((ctx.access n).convertValue T v) ((ctx.access (n + 1)).convertValue T v)
  | .list [v] => by
    by_cases hopens : T.opensSingletons = true
    · rw [convertValue_singleton (hT hopens) hopens, convertValue_singleton (hT hopens) hopens]
      exact below_convertValue h hT v
    · simp only [Access.convertValue, Access.convertOnly, if_neg hopens]
      exact h.convertWhole T _
  | .variable name => h.convert hT (.variable name)
  | .part parent address => h.convert hT (.part parent address)
  | .list [] => h.convertWhole T _
  | .list (v :: w :: vs) => h.convertWhole T _
  | .empty => h.convertWhole T _
  | .text _ => h.convertWhole T _
  | .integer _ => h.convertWhole T _
  | .decimal _ => h.convertWhole T _
  | .boolean _ => h.convertWhole T _
  | .binary _ => h.convertWhole T _
  | .dictionary _ => h.convertWhole T _
  | .date _ => h.convertWhole T _

theorem opens_dictionary : Target.dictionary.Opens := fun _ _ => rfl

theorem below_readPart (h : (ctx.access n).Below (ctx.access (n + 1))) (v : Value)
    (address : Address) :
    ExtendsTo ((ctx.access n).readPart v address) ((ctx.access (n + 1)).readPart v address) := by
  cases address with
  | key k => exact (below_convertValue h opens_dictionary v).bind fun _ => extendsTo_rfl
  | chunk spec =>
    unfold Access.readPart
    rw [h.config_eq]
    dsimp only
    split
    · split
      · exact extendsTo_rfl
      · exact (h.textOf _).bind fun _ => extendsTo_rfl
    · exact extendsTo_rfl
    · exact extendsTo_rfl
    · exact (h.textOf _).bind fun _ => extendsTo_rfl

theorem below_access_succ (ctx : Context) (n : Nat) :
    (ctx.access n).Below (ctx.access (n + 1)) := by
  induction n with
  | zero =>
    refine ⟨by simp, ?_, fun _ => extendsTo_tooDeep, fun _ _ => extendsTo_tooDeep⟩
    rintro (name | ⟨parent, address⟩)
    · exact extendsTo_rfl
    · exact extendsTo_tooDeep
  | succ n ih =>
    refine ⟨by simp, ?_, ?_, ?_⟩
    · rintro (name | ⟨parent, address⟩)
      · exact extendsTo_rfl
      · exact (ih.resolve parent).bind fun v => below_readPart ih v address
    · intro c
      exact (ih.resolve _).bind ih.textOf
    · intro α T hT c
      exact (ih.resolve _).bind (below_convertValue ih hT)

end Context

end ScriptValue
