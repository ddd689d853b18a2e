import ScriptValue.Proofs.Coercion.Joining

namespace ScriptValue

variable [DateLibrary] {α : Type}

def Target.merged? (T : Target α) (merge? : Option (α → α → α)) (l r : Value) : Option α := do
  let merge ← merge?
  let x ← T.ofValue? l
  let y ← T.ofValue? r
  return merge x y

theorem Target.merged?_eq_some_iff {T : Target α} {merge : α → α → α} {l r : Value} {z : α} :
    T.merged? (some merge) l r = some z ↔
      ∃ x y, T.ofValue? l = some x ∧ T.ofValue? r = some y ∧ merge x y = z := by
  simp [merged?, Option.bind_eq_some_iff]

namespace Context

def readTogether (ctx : Context) (T : Target α) (l r : Value) : Except ValueError α := do
  let t ← ctx.text l
  let u ← ctx.text r
  T.ofText ctx.config (t ++ u)

/--
Turns two values into a target in the first way there is: the other one where one is empty, what
they hold if both are of the kind, what the kind has for any two values, and last their texts.
-/
def convertInTurn (ctx : Context) (T : Target α) (merge? : Option (α → α → α))
    (concat? : Option (Value → Value → Except ValueError α)) (left right : Value) :
    Except ValueError α := do
  let l ← ctx.resolve left
  let r ← ctx.resolve right
  if l.isEmpty then ctx.convert T r
  else if r.isEmpty then ctx.convert T l
  else match T.merged? merge? l r with
    | some z => return z
    | none => concat?.getD (ctx.readTogether T) l r

def convertInTurnTo (ctx : Context) (k : Kind) (left right : Value) : Except ValueError Value :=
  match k with
  | .empty | .container => ctx.convertEither k left right
  | .text => (ctx.convertInTurn .text (some (· ++ ·)) none left right).map Target.text.toValue
  | .integer => (ctx.convertInTurn .integer none none left right).map Target.integer.toValue
  | .decimal => (ctx.convertInTurn .decimal none none left right).map Target.decimal.toValue
  | .number => (ctx.convertInTurn .number none none left right).map Target.number.toValue
  | .boolean => (ctx.convertInTurn .boolean none none left right).map Target.boolean.toValue
  | .binary =>
    let concat (l r : Value) := return (← ctx.convert .binary l) ++ (← ctx.convert .binary r)
    (ctx.convertInTurn .binary (some (· ++ ·)) (some concat) left right).map Target.binary.toValue
  | .dictionary =>
    (ctx.convertInTurn .dictionary (some Entries.merge) none left right).map
      Target.dictionary.toValue
  | .list =>
    let concat (l r : Value) := return (← ctx.elements l) ++ (← ctx.elements r)
    (ctx.convertInTurn .list (some (· ++ ·)) (some concat) left right).map Target.list.toValue
  | .date => (ctx.convertInTurn .date none none left right).map Target.date.toValue

variable {ctx : Context} {T : Target α} {append : α → α → α}
  {concat? : Option (Value → Value → Except ValueError α)} {v : Value}

theorem convertBoth_of_append?_eq_none (happend : T.append? = none) (left right : Value) :
    ctx.convertBoth T left right = ctx.convertInTurn T T.merge? none left right := by
  refine bind_congr fun l => bind_congr fun r => ?_
  rw [happend]
  refine ite_congr rfl (fun _ => rfl) fun _ => ite_congr rfl (fun _ => rfl) fun _ => ?_
  rw [Target.merged?]
  cases T.merge? <;> cases T.ofValue? l <;> cases T.ofValue? r <;> rfl

theorem convertBoth_of_append?_eq_some (happend : T.append? = some append)
    (hof : ∀ v x, T.ofValue? v = some x → ctx.convert T v = .ok x)
    (hconcat : ∀ l r, l.container? = none → r.container? = none → l.isEmpty = false →
      r.isEmpty = false → concat?.getD (ctx.readTogether T) l r =
        ctx.convert T l >>= fun x => ctx.convert T r >>= fun y => .ok (append x y))
    (left right : Value) :
    ctx.convertBoth T left right = ctx.convertInTurn T (some append) concat? left right := by
  rw [convertBoth, convertInTurn, happend]
  cases hl : ctx.resolve left with
  | error e => rfl
  | ok l =>
    cases hr : ctx.resolve right with
    | error e => rfl
    | ok r =>
      refine ite_congr rfl (fun _ => rfl) fun hlne => ite_congr rfl (fun _ => rfl) fun hrne => ?_
      rw [Bool.not_eq_true] at hlne hrne
      cases hz : T.merged? (some append) l r with
      | none =>
        have hl := Access.container?_of_resolve hl
        have hr := Access.container?_of_resolve hr
        exact (hconcat l r hl hr hlne hrne).symm
      | some z =>
        obtain ⟨x, y, hx, hy, rfl⟩ := Target.merged?_eq_some_iff.1 hz
        rw [hof l x hx, hof r y hy]
        rfl

theorem elements_eq_convert (hv : v.container? = none) (hne : v.isEmpty = false) :
    ctx.elements v = ctx.convert .list v := by
  have hresolve : ctx.resolve v = .ok v := resolve_of_none hv
  rw [elements, hresolve]
  cases v with
  | empty => cases hne
  | text t =>
    have hgiven : Target.list.given? (.text t) = some [.text t] := by
      rw [Target.given?, hne]
      rfl
    exact (Access.convertWhole_of_some hgiven).symm
  | list vs => exact (ctx.convert_list vs).symm
  | «variable» => cases hv
  | part => cases hv
  | _ => rfl

/-- What two values become is what they become in the first way that their kind has for them. -/
theorem convertBothTo_eq_inTurn (ctx : Context) (k : Kind) (left right : Value) :
    ctx.convertBothTo k left right = ctx.convertInTurnTo k left right := by
  cases k with
  | empty => rfl
  | text =>
    refine congrArg (Except.map _) (convertBoth_of_append?_eq_some rfl ?_ ?_ left right)
    · intro v t h
      cases v <;> cases h
      rfl
    · intro l r _ _ _ _
      -- the texts put together are the text of what is put together
      rw [convert_text, convert_text]
      rfl
  | binary =>
    refine congrArg (Except.map _) (convertBoth_of_append?_eq_some rfl ?_ ?_ left right)
    · intro v bs h
      cases v <;> cases h
      rfl
    · intro l r _ _ _ _
      rfl
  | list =>
    refine congrArg (Except.map _) (convertBoth_of_append?_eq_some rfl ?_ ?_ left right)
    · intro v vs h
      cases v <;> cases h
      exact convert_list ctx _
    · intro l r hl hr hlne hrne
      rw [← elements_eq_convert hl hlne, ← elements_eq_convert hr hrne]
      rfl
  | container => rfl
  | integer | decimal | number | boolean | dictionary | date =>
    exact congrArg (Except.map _) (convertBoth_of_append?_eq_none rfl left right)

end Context

end ScriptValue
