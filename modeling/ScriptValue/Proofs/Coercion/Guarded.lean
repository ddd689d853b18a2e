import ScriptValue.Proofs.Coercion.Guards
import ScriptValue.Proofs.Coercion.Singleton

/-!
Reading values with guards. How far values may be read through one another is known here from the
guards alone; to see that it comes to an end, the operations on containers are unfolded, as often as
wanted, from ones that never end. Unfolded oftener than guards can be held they all come to an end,
whatever variables refer to, and to the same as reading with a limited number of levels.
-/

namespace ScriptValue

variable [DateLibrary]

namespace Guarded

structure Reader where
  context : Context
  read : Container → Guarded Value
  text : Container → Guarded Text
  convert : {α : Type} → Target α → Container → Guarded α

namespace Reader

def config (r : Reader) : Config := r.context.config

def resolveWithin (r : Reader) : Nat → Value → Guarded Value
  | 0, _ => throw .tooDeep
  | n + 1, v =>
    match v.container? with
    | none => return v
    | some c => r.read c >>= resolveWithin r n

def resolve (r : Reader) (v : Value) : Guarded Value := r.resolveWithin maxDepth v

mutual
def textOf (r : Reader) : Value → Guarded Text
  | .empty => return []
  | .text t => return t
  | .integer n => return r.config.numberFormat.showInteger n
  | .decimal d => return r.config.numberFormat.showDecimal d
  | .boolean b => return (if b then "true" else "false").toList
  | .binary bs => return Utf8.decode bs
  | .dictionary es => Block.render <$> entryTexts r es
  | .list vs => (fun ts => [r.config.delimiters.item].intercalate ts) <$> texts r vs
  | .date d => return DateLibrary.format d r.config.datePattern
  | .variable name => r.text (.variable name)
  | .part parent address => r.text (.part parent address)
termination_by structural v => v

def texts (r : Reader) : List Value → Guarded (List Text)
  | [] => return []
  | v :: vs => do
    let t ← textOf r v
    let ts ← texts r vs
    return t :: ts
termination_by structural vs => vs

def entryTexts (r : Reader) : List (Text × Value) → Guarded (Entries Text)
  | [] => return []
  | (k, v) :: es => do
    let t ← textOf r v
    let ts ← entryTexts r es
    return (k, t) :: ts
termination_by structural es => es
end

def render (r : Reader) (es : Dictionary) : Guarded Text := Block.render <$> r.entryTexts es

def parsed {α : Type} (r : Reader) (T : Target α) (t : Text) : Guarded α :=
  match T.parse? r.config t with
  | some x => return x
  | none => throw (.coercionFailed T.kind)

def convertWhole {α : Type} (r : Reader) (T : Target α) (v : Value) : Guarded α :=
  match T.given? v with
  | some x => return x
  | none => do r.parsed T (← r.textOf v)

mutual
def convertValue {α : Type} (r : Reader) (T : Target α) : Value → Guarded α
  | .variable name => r.convert T (.variable name)
  | .part parent address => r.convert T (.part parent address)
  | .list vs =>
    match convertOnly r T vs with
    | some m => m.orElse (r.convertWhole T (.list vs))
    | none => r.convertWhole T (.list vs)
  | v => r.convertWhole T v
termination_by structural v => v

def convertOnly {α : Type} (r : Reader) (T : Target α) : List Value → Option (Guarded α)
  | [v] => if T.opensSingletons then some (convertValue r T v) else none
  | _ => none
termination_by structural vs => vs
end

def readPart (r : Reader) (v : Value) : Address → Guarded Value
  | .key k => do
    let d ← r.convertValue .dictionary v
    return (d.get? k).getD .empty
  | .chunk spec => do
    match v with
    | .list vs =>
      if spec.kind.isElement then return Elements.extract spec vs
      else return .text (extract r.config.delimiters spec (← r.textOf v))
    | .binary bs => return .binary (extract r.config.delimiters spec bs)
    | .dictionary _ => throw (.notAddressable spec .dictionary)
    | v => return .text (extract r.config.delimiters spec (← r.textOf v))

def through (r : Reader) : Reader where
  context := r.context
  read
    | .variable name => return (r.context.lookup? name).getD (.text name)
    | .part parent address => guard do r.readPart (← r.resolve parent) address
  text c := guard do r.textOf (← r.resolve c.toValue)
  convert T c := guard do r.convertValue T (← r.resolve c.toValue)

def unfolded (ctx : Context) : Nat → Reader
  | 0 => ⟨ctx, fun _ => endless, fun _ => endless, fun _ _ => endless⟩
  | d + 1 => (unfolded ctx d).through

def convertBoth {α : Type} (r : Reader) (T : Target α) (left right : Value) : Guarded α := do
  let l ← r.resolve left
  let w ← r.resolve right
  if l.isEmpty then r.convertValue T w
  else if w.isEmpty then r.convertValue T l
  else match T.append?, T.merge?, T.ofValue? l, T.ofValue? w with
    | some append, _, _, _ => return append (← r.convertValue T l) (← r.convertValue T w)
    | none, some merge, some x, some y => return merge x y
    | _, _, _, _ => do
      let t ← r.textOf l
      r.parsed T (t ++ (← r.textOf w))

def convertTo (r : Reader) (k : Kind) (v : Value) : Guarded Value :=
  match k with
  | .empty => do
    if (← r.resolve v).isEmpty then return .empty else throw (.coercionFailed .empty)
  | .text => Target.text.toValue <$> r.convertValue .text v
  | .integer => Target.integer.toValue <$> r.convertValue .integer v
  | .decimal => Target.decimal.toValue <$> r.convertValue .decimal v
  | .number => Target.number.toValue <$> r.convertValue .number v
  | .boolean => Target.boolean.toValue <$> r.convertValue .boolean v
  | .binary => Target.binary.toValue <$> r.convertValue .binary v
  | .dictionary => Target.dictionary.toValue <$> r.convertValue .dictionary v
  | .list => Target.list.toValue <$> r.convertValue .list v
  | .date => Target.date.toValue <$> r.convertValue .date v
  | .container =>
    match v.asContainer true with
    | .ok c => return c.toValue
    | .error _ => throw (.coercionFailed .container)

def convertEither (r : Reader) (k : Kind) (left right : Value) : Guarded Value := do
  if (← r.resolve left).isEmpty then r.convertTo k right
  else if (← r.resolve right).isEmpty then r.convertTo k left
  else throw (.coercionFailed k)

def convertBothTo (r : Reader) (k : Kind) (left right : Value) : Guarded Value :=
  match k with
  | .empty | .container => r.convertEither k left right
  | .text => Target.text.toValue <$> r.convertBoth .text left right
  | .integer => Target.integer.toValue <$> r.convertBoth .integer left right
  | .decimal => Target.decimal.toValue <$> r.convertBoth .decimal left right
  | .number => Target.number.toValue <$> r.convertBoth .number left right
  | .boolean => Target.boolean.toValue <$> r.convertBoth .boolean left right
  | .binary => Target.binary.toValue <$> r.convertBoth .binary left right
  | .dictionary => Target.dictionary.toValue <$> r.convertBoth .dictionary left right
  | .list => Target.list.toValue <$> r.convertBoth .list left right
  | .date => Target.date.toValue <$> r.convertBoth .date left right

/-- With `n` more guards to hold, what is done is what an access with as many levels does. -/
structure Counts (r : Reader) (a : Access) (n : Nat) : Prop where
  context_eq : r.context = a.context
  read : ∀ c, EndsWith (r.read c) n (a.read c)
  text : ∀ c, EndsWith (r.text c) n (a.text c)
  convert : ∀ {α : Type} (T : Target α) c, EndsWith (r.convert T c) n (a.convert T c)

variable {α : Type} {r : Reader} {a : Access} {n : Nat}

theorem Counts.config_eq (h : r.Counts a n) : r.config = a.config := by
  rw [config, h.context_eq]
  rfl

theorem Counts.resolveWithin (h : r.Counts a n) (m : Nat) (v : Value) :
    EndsWith (r.resolveWithin m v) n (a.resolveWithin m v) := by
  induction m generalizing v with
  | zero => exact endsWith_throw n _
  | succ m ih =>
    rw [Reader.resolveWithin, Access.resolveWithin]
    cases v.container? with
    | none => exact endsWith_pure n v
    | some c => exact (h.read c).bind ih

theorem Counts.resolve (h : r.Counts a n) (v : Value) : EndsWith (r.resolve v) n (a.resolve v) :=
  h.resolveWithin maxDepth v

mutual
theorem Counts.textOf (h : r.Counts a n) : (v : Value) → EndsWith (r.textOf v) n (a.textOf v)
  | .empty => endsWith_pure n _
  | .text t => endsWith_pure n _
  | .integer i => by
    rw [Reader.textOf, Access.textOf, h.config_eq]
    exact endsWith_pure n _
  | .decimal d => by
    rw [Reader.textOf, Access.textOf, h.config_eq]
    exact endsWith_pure n _
  | .boolean b => endsWith_pure n _
  | .binary bs => endsWith_pure n _
  | .dictionary es => (h.entryTexts es).map Block.render
  | .list vs => by
    rw [Reader.textOf, Access.textOf, h.config_eq]
    exact (h.texts vs).map _
  | .date d => by
    rw [Reader.textOf, Access.textOf, h.config_eq]
    exact endsWith_pure n _
  | .variable name => h.text (.variable name)
  | .part parent address => h.text (.part parent address)
termination_by structural v => v

theorem Counts.texts (h : r.Counts a n) : (vs : List Value) → EndsWith (r.texts vs) n (a.texts vs)
  | [] => endsWith_pure n _
  | v :: vs => (h.textOf v).bind fun _ => (h.texts vs).bind fun _ => endsWith_pure n _
termination_by structural vs => vs

theorem Counts.entryTexts (h : r.Counts a n) :
    (es : List (Text × Value)) → EndsWith (r.entryTexts es) n (a.entryTexts es)
  | [] => endsWith_pure n _
  | (_, v) :: es => (h.textOf v).bind fun _ => (h.entryTexts es).bind fun _ => endsWith_pure n _
termination_by structural es => es
end

theorem Counts.parsed (h : r.Counts a n) (T : Target α) (t : Text) :
    EndsWith (r.parsed T t) n (T.ofText a.config t) := by
  rw [Reader.parsed, Target.ofText, h.config_eq]
  cases T.parse? a.config t with
  | some x => exact endsWith_pure n x
  | none => exact endsWith_throw n _

theorem Counts.convertWhole (h : r.Counts a n) (T : Target α) (v : Value) :
    EndsWith (r.convertWhole T v) n (a.convertWhole T v) := by
  rw [Reader.convertWhole]
  cases hgiven : T.given? v with
  | some x =>
    rw [Access.convertWhole_of_some hgiven]
    exact endsWith_pure n x
  | none =>
    rw [Access.convertWhole_of_none hgiven]
    exact (h.textOf v).bind (h.parsed T)

theorem Counts.convertValue (h : r.Counts a n) (T : Target α) :
    (v : Value) → EndsWith (r.convertValue T v) n (a.convertValue T v)
  | .variable name => h.convert T (.variable name)
  | .part parent address => h.convert T (.part parent address)
  | .list [v] => by
    rw [Reader.convertValue, Reader.convertOnly, Access.convertValue, Access.convertOnly]
    by_cases hopens : T.opensSingletons = true
    · rw [if_pos hopens, if_pos hopens]
      exact (h.convertValue T v).orElse (h.convertWhole T _)
    · rw [if_neg hopens, if_neg hopens]
      exact h.convertWhole T _
  | .list [] => h.convertWhole T _
  | .list (_ :: _ :: _) => h.convertWhole T _
  | .empty => h.convertWhole T _
  | .text _ => h.convertWhole T _
  | .integer _ => h.convertWhole T _
  | .decimal _ => h.convertWhole T _
  | .boolean _ => h.convertWhole T _
  | .binary _ => h.convertWhole T _
  | .dictionary _ => h.convertWhole T _
  | .date _ => h.convertWhole T _

theorem Counts.readPart (h : r.Counts a n) (v : Value) (address : Address) :
    EndsWith (r.readPart v address) n (a.readPart v address) := by
  cases address with
  | key k => exact (h.convertValue .dictionary v).bind fun d => endsWith_pure n _
  | chunk spec =>
    unfold Reader.readPart Access.readPart
    rw [h.config_eq]
    cases v with
    | list vs =>
      dsimp only
      split
      · exact endsWith_pure n _
      · exact (h.textOf _).bind fun t => endsWith_pure n _
    | binary bs => exact endsWith_pure n _
    | dictionary es => exact endsWith_throw n _
    | _ => exact (h.textOf _).bind fun t => endsWith_pure n _

theorem counts_through_none (r : Reader) : r.through.Counts (.through r.context none) 0 := by
  refine ⟨rfl, ?_, fun c => endsWith_guard_zero _, fun T c => endsWith_guard_zero _⟩
  rintro (name | ⟨parent, address⟩)
  · exact endsWith_pure 0 _
  · exact endsWith_guard_zero _

theorem Counts.through (h : r.Counts a n) :
    r.through.Counts (.through r.context (some a)) (n + 1) := by
  refine ⟨rfl, ?_, fun c => ?_, fun T c => ?_⟩
  · rintro (name | ⟨parent, address⟩)
    · exact endsWith_pure _ _
    · exact EndsWith.guard ((h.resolve parent).bind fun v => h.readPart v address)
  · exact EndsWith.guard ((h.resolve _).bind h.textOf)
  · exact EndsWith.guard ((h.resolve _).bind (h.convertValue T))

@[simp] theorem context_unfolded (ctx : Context) (d : Nat) : (unfolded ctx d).context = ctx := by
  induction d with
  | zero => rfl
  | succ d ih => exact ih

theorem counts_unfolded (ctx : Context) {d n : Nat} (h : n < d) :
    (unfolded ctx d).Counts (ctx.access n) n := by
-- each guard takes one unfolding, and one is left where no guard can be held
  induction n generalizing d with
  | zero =>
    obtain ⟨d, rfl⟩ := Nat.exists_eq_add_one_of_ne_zero (Nat.ne_of_gt h)
    have hthrough := counts_through_none (unfolded ctx d)
    rwa [context_unfolded] at hthrough
  | succ n ih =>
    obtain ⟨d, rfl⟩ := Nat.exists_eq_add_one_of_ne_zero (Nat.ne_zero_of_lt h)
    have hthrough := (ih (Nat.lt_of_succ_lt_succ h)).through
    rwa [context_unfolded] at hthrough

section Outer

variable {ctx : Context} (h : r.Counts ctx.outer maxDepth)

include h

theorem Counts.convertBoth (T : Target α) (left right : Value) :
    EndsWith (r.convertBoth T left right) maxDepth (ctx.convertBoth T left right) := by
  refine (h.resolve left).bind fun l => (h.resolve right).bind fun w => ?_
  split
  · exact h.convertValue T w
  · split
    · exact h.convertValue T l
    · have htexts := (h.textOf l).bind fun t => (h.textOf w).bind fun u => h.parsed T (t ++ u)
      generalize T.append? = append, T.merge? = merge, T.ofValue? l = x, T.ofValue? w = y
      cases append with
      | some append =>
        exact (h.convertValue T l).bind fun x =>
          (h.convertValue T w).bind fun y => endsWith_pure _ _
      | none =>
        -- two values of the kind are merged, where the kind says how
        cases merge with
        | none => exact htexts
        | some merge =>
          cases x with
          | none => exact htexts
          | some x =>
            cases y with
            | none => exact htexts
            | some y => exact endsWith_pure _ _

theorem Counts.convertTo (k : Kind) (v : Value) :
    EndsWith (r.convertTo k v) maxDepth (ctx.convertTo k v) := by
  cases k with
  | empty =>
    refine (h.resolve v).bind fun w => ?_
    split
    · exact endsWith_pure _ _
    · exact endsWith_throw _ _
  | text => exact (h.convertValue .text v).map _
  | integer => exact (h.convertValue .integer v).map _
  | decimal => exact (h.convertValue .decimal v).map _
  | number => exact (h.convertValue .number v).map _
  | boolean => exact (h.convertValue .boolean v).map _
  | binary => exact (h.convertValue .binary v).map _
  | dictionary => exact (h.convertValue .dictionary v).map _
  | list => exact (h.convertValue .list v).map _
  | date => exact (h.convertValue .date v).map _
  | container =>
    rw [Reader.convertTo, Context.convertTo]
    cases v.asContainer true with
    | ok c => exact endsWith_pure _ _
    | error => exact endsWith_throw _ _

theorem Counts.convertEither (k : Kind) (left right : Value) :
    EndsWith (r.convertEither k left right) maxDepth (ctx.convertEither k left right) := by
  refine (h.resolve left).bind fun l => ?_
  split
  · exact h.convertTo k right
  · refine (h.resolve right).bind fun w => ?_
    split
    · exact h.convertTo k left
    · exact endsWith_throw _ _

theorem Counts.convertBothTo (k : Kind) (left right : Value) :
    EndsWith (r.convertBothTo k left right) maxDepth (ctx.convertBothTo k left right) := by
  cases k with
  | empty => exact h.convertEither .empty left right
  | text => exact (h.convertBoth .text left right).map _
  | integer => exact (h.convertBoth .integer left right).map _
  | decimal => exact (h.convertBoth .decimal left right).map _
  | number => exact (h.convertBoth .number left right).map _
  | boolean => exact (h.convertBoth .boolean left right).map _
  | binary => exact (h.convertBoth .binary left right).map _
  | dictionary => exact (h.convertBoth .dictionary left right).map _
  | list => exact (h.convertBoth .list left right).map _
  | date => exact (h.convertBoth .date left right).map _
  | container => exact h.convertEither .container left right

end Outer

end Reader

end Guarded

end ScriptValue
