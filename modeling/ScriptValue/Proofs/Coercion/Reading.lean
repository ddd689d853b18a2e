import ScriptValue.Coercion.Access

namespace ScriptValue

variable [DateLibrary]

/-- A value in which there is no container. -/
inductive Value.Plain : Value → Prop where
  | empty : Plain .empty
  | text (t) : Plain (.text t)
  | integer (n) : Plain (.integer n)
  | decimal (d) : Plain (.decimal d)
  | boolean (b) : Plain (.boolean b)
  | binary (bs) : Plain (.binary bs)
  | dictionary {es : List (Text × Value)} (h : ∀ e ∈ es, Plain e.2) : Plain (.dictionary es)
  | list {vs : List Value} (h : ∀ v ∈ vs, Plain v) : Plain (.list vs)
  | date (d) : Plain (.date d)

theorem Value.Plain.container?_eq_none {v : Value} (h : v.Plain) : v.container? = none := by
  cases h <;> rfl

theorem Value.isEmpty_iff {v : Value} : v.isEmpty = true ↔ v = .empty ∨ v = .text [] := by
  cases v <;> simp [isEmpty]

theorem Value.eq_toValue {v : Value} {c : Container} (h : v.container? = some c) :
    v = c.toValue := by
  unfold container? at h
  split at h
  · cases h
    rfl
  · cases h
    rfl
  · cases h

namespace Access

variable {a b : Access} {v w : Value}

@[simp] theorem textOf_toValue (a : Access) (c : Container) : a.textOf c.toValue = a.text c := by
  cases c <;> rfl

@[simp] theorem convertValue_toValue {α : Type} (a : Access) (T : Target α) (c : Container) :
    a.convertValue T c.toValue = a.convert T c := by
  cases c <;> rfl

theorem resolve_of_none (a : Access) (hv : v.container? = none) : a.resolve v = .ok v := by
  change a.resolveWithin (63 + 1) v = _
  rw [resolveWithin, hv]

theorem resolve_of_read {c : Container} (hv : v.container? = some c) (hc : a.read c = .ok w)
    (hw : w.container? = none) : a.resolve v = .ok w := by
  change a.resolveWithin (62 + 1 + 1) v = _
  rw [resolveWithin, hv]
  dsimp only
  rw [hc, Except.bind, resolveWithin, hw]

theorem container?_of_resolveWithin {n : Nat} (h : a.resolveWithin n v = .ok w) :
    w.container? = none := by
  induction n generalizing v with
  | zero => cases h
  | succ n ih =>
    rw [resolveWithin] at h
    split at h
    case h_1 hv =>
      cases h
      exact hv
    case h_2 c hv =>
      cases hc : a.read c with
      | error =>
        rw [hc] at h
        cases h
      | ok u =>
        rw [hc] at h
        exact ih h

theorem container?_of_resolve (h : a.resolve v = .ok w) : w.container? = none :=
  container?_of_resolveWithin h

theorem texts_congr {vs : List Value} (h : ∀ v ∈ vs, a.textOf v = b.textOf v) :
    a.texts vs = b.texts vs := by
  induction vs with
  | nil => rfl
  | cons v vs ih =>
    rw [List.forall_mem_cons] at h
    rw [texts, texts, h.1, ih h.2]

theorem entryTexts_congr {es : List (Text × Value)} (h : ∀ e ∈ es, a.textOf e.2 = b.textOf e.2) :
    a.entryTexts es = b.entryTexts es := by
  induction es with
  | nil => rfl
  | cons e es ih =>
    rw [List.forall_mem_cons] at h
    rw [entryTexts, entryTexts, h.1, ih h.2]

theorem textOf_congr (hconfig : a.config = b.config) (hv : v.Plain) : a.textOf v = b.textOf v := by
  induction hv with
  | empty => rfl
  | text => rfl
  | integer => rw [textOf, textOf, hconfig]
  | decimal => rw [textOf, textOf, hconfig]
  | boolean => rfl
  | binary => rfl
  | dictionary _ ih => rw [textOf, textOf, entryTexts_congr ih]
  | list _ ih => rw [textOf, textOf, texts_congr ih, hconfig]
  | date => rw [textOf, textOf, hconfig]

theorem exists_texts (a : Access) {vs : List Value} (h : ∀ v ∈ vs, ∃ t, a.textOf v = .ok t) :
    ∃ ts, a.texts vs = .ok ts := by
  induction vs with
  | nil => exact ⟨[], rfl⟩
  | cons v vs ih =>
    rw [List.forall_mem_cons] at h
    obtain ⟨t, ht⟩ := h.1
    obtain ⟨ts, hts⟩ := ih h.2
    exact ⟨t :: ts, by rw [texts, ht, hts]; rfl⟩

theorem exists_entryTexts (a : Access) {es : List (Text × Value)}
    (h : ∀ e ∈ es, ∃ t, a.textOf e.2 = .ok t) : ∃ ts, a.entryTexts es = .ok ts := by
  induction es with
  | nil => exact ⟨[], rfl⟩
  | cons e es ih =>
    rw [List.forall_mem_cons] at h
    obtain ⟨t, ht⟩ := h.1
    obtain ⟨ts, hts⟩ := ih h.2
    exact ⟨(e.1, t) :: ts, by rw [entryTexts, ht, hts]; rfl⟩

theorem exists_textOf (a : Access) {v : Value} (hv : v.Plain) : ∃ t, a.textOf v = .ok t := by
  induction hv with
  | dictionary _ ih =>
    obtain ⟨ts, hts⟩ := a.exists_entryTexts ih
    exact ⟨_, by rw [textOf, hts]; rfl⟩
  | list _ ih =>
    obtain ⟨ts, hts⟩ := a.exists_texts ih
    exact ⟨_, by rw [textOf, hts]; rfl⟩
  | _ => exact ⟨_, rfl⟩

end Access

namespace Context

variable (ctx : Context) (n : Nat)

@[simp] theorem context_access : (ctx.access n).context = ctx := by
  cases n <;> rfl

@[simp] theorem config_access : (ctx.access n).config = ctx.config :=
  congrArg Context.config (ctx.context_access n)

@[simp] theorem config_within : ctx.within.config = ctx.config := ctx.config_access _

@[simp] theorem config_outer : ctx.outer.config = ctx.config := ctx.config_access _

theorem read_variable (name : Text) :
    (ctx.access n).read (.variable name) = .ok ((ctx.lookup? name).getD (.text name)) := by
  cases n <;> rfl

theorem read_part (parent : Value) (address : Address) :
    (ctx.access (n + 1)).read (.part parent address) = (do
      (ctx.access n).readPart (← (ctx.access n).resolve parent) address) := rfl

theorem text_access_succ (c : Container) :
    (ctx.access (n + 1)).text c = (ctx.access n).resolve c.toValue >>= (ctx.access n).textOf := rfl

theorem convert_access_succ {α : Type} (T : Target α) (c : Container) :
    (ctx.access (n + 1)).convert T c =
      (ctx.access n).resolve c.toValue >>= (ctx.access n).convertValue T := rfl

theorem textOf_within {v : Value} (hv : v.Plain) : ctx.within.textOf v = ctx.text v :=
  Access.textOf_congr (by simp) hv

end Context

end ScriptValue
