import ScriptValue.Proofs.Coercion.Reading

namespace ScriptValue

variable [DateLibrary]

inductive Value.Holds (w : Value) : Value → Prop
  | list {vs : List Value} (h : w ∈ vs) : Holds w (.list vs)
  | dictionary {es : List (Text × Value)} {k : Text} (h : (k, w) ∈ es) : Holds w (.dictionary es)

theorem Value.Holds.container?_eq_none {v w : Value} (h : Holds w v) : v.container? = none := by
  cases h <;> rfl

namespace Access

variable {a : Access} {v w : Value}

theorem exists_texts_error {vs : List Value} (hw : ∃ e, a.textOf w = .error e) (h : w ∈ vs) :
    ∃ e, a.texts vs = .error e := by
  induction vs with
  | nil => cases h
  | cons v vs ih =>
    rw [texts]
    cases hv : a.textOf v with
    | error e => exact ⟨e, rfl⟩
    | ok t =>
      cases h with
      | head =>
        obtain ⟨e, he⟩ := hw
        cases hv.symm.trans he
      | tail _ h =>
        obtain ⟨e, he⟩ := ih h
        exact ⟨e, by rw [he]; rfl⟩

theorem entryTexts_eq (a : Access) (es : List (Text × Value)) :
    a.entryTexts es = (a.texts (es.map Prod.snd)).map (es.map Prod.fst).zip := by
  induction es with
  | nil => rfl
  | cons entry es ih =>
    rw [entryTexts, ih, List.map_cons, List.map_cons, texts]
    cases a.textOf entry.2 with
    | error => rfl
    | ok t => cases a.texts (es.map Prod.snd) <;> rfl

theorem exists_textOf_error (hw : ∃ e, a.textOf w = .error e) (h : Value.Holds w v) :
    ∃ e, a.textOf v = .error e := by
  cases h with
  | list h =>
    obtain ⟨e, he⟩ := exists_texts_error hw h
    exact ⟨e, by rw [textOf, he]; rfl⟩
  | @dictionary es k h =>
    have hmem : w ∈ es.map Prod.snd := List.mem_map_of_mem h
    obtain ⟨e, he⟩ := exists_texts_error hw hmem
    exact ⟨e, by rw [textOf, entryTexts_eq, he]; rfl⟩

end Access

namespace Context

variable {ctx : Context} {v : Value} {name : Text}

theorem resolve_access_of_lookup? (n : Nat) (h : ctx.lookup? name = some v)
    (hv : v.container? = none) : (ctx.access n).resolve (.variable name) = .ok v := by
  refine Access.resolve_of_read rfl ?_ hv
  rw [read_variable, h]
  rfl

/-- Names of variables each of which holds a variable with one of the names. -/
def Circular (ctx : Context) (P : Text → Prop) : Prop :=
  ∀ name, P name → ∃ v other, ctx.lookup? name = some v ∧ Value.Holds (.variable other) v ∧ P other

theorem Circular.exists_text_error {P : Text → Prop} (h : ctx.Circular P) (n : Nat)
    (hname : P name) : ∃ e, (ctx.access n).text (.variable name) = .error e := by
  -- with each level the error comes from the next variable, until no level is left
  induction n generalizing name with
  | zero => exact ⟨.tooDeep, rfl⟩
  | succ n ih =>
    obtain ⟨v, other, hlookup, hholds, hother⟩ := h name hname
    have hnext : ∃ e, (ctx.access n).textOf (.variable other) = .error e := ih hother
    obtain ⟨e, he⟩ := Access.exists_textOf_error hnext hholds
    refine ⟨e, ?_⟩
    rw [text_access_succ, Container.toValue,
      resolve_access_of_lookup? n hlookup hholds.container?_eq_none]
    exact he

end Context

end ScriptValue
