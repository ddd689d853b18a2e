import ScriptValue.Coercion.Access

namespace ScriptValue

variable [DateLibrary]

namespace Context

def convert {α : Type} (ctx : Context) (T : Target α) (v : Value) : Except ValueError α :=
  ctx.outer.convertValue T v

def convertBoth {α : Type} (ctx : Context) (T : Target α) (left right : Value) :
    Except ValueError α := do
  let l ← ctx.resolve left
  let r ← ctx.resolve right
  if l.isEmpty then ctx.convert T r
  else if r.isEmpty then ctx.convert T l
  else match T.append?, T.merge?, T.ofValue? l, T.ofValue? r with
    | some append, _, _, _ => return append (← ctx.convert T l) (← ctx.convert T r)
    | none, some merge, some x, some y => return merge x y
    | _, _, _, _ =>
      let t ← ctx.text l
      match T.parse? ctx.config (t ++ (← ctx.text r)) with
      | some x => return x
      | none => throw (.coercionFailed T.kind)

def convertTo (ctx : Context) (k : Kind) (v : Value) : Except ValueError Value :=
  match k with
  | .empty => do
    if (← ctx.resolve v).isEmpty then return .empty else throw (.coercionFailed .empty)
  | .text => (ctx.convert .text v).map Target.text.toValue
  | .integer => (ctx.convert .integer v).map Target.integer.toValue
  | .decimal => (ctx.convert .decimal v).map Target.decimal.toValue
  | .number => (ctx.convert .number v).map Target.number.toValue
  | .boolean => (ctx.convert .boolean v).map Target.boolean.toValue
  | .binary => (ctx.convert .binary v).map Target.binary.toValue
  | .dictionary => (ctx.convert .dictionary v).map Target.dictionary.toValue
  | .list => (ctx.convert .list v).map Target.list.toValue
  | .date => (ctx.convert .date v).map Target.date.toValue
  | .container =>
    match v.asContainer true with
    | .ok c => .ok c.toValue
    | .error _ => .error (.coercionFailed .container)

def convertEither (ctx : Context) (k : Kind) (left right : Value) : Except ValueError Value := do
  if (← ctx.resolve left).isEmpty then ctx.convertTo k right
  else if (← ctx.resolve right).isEmpty then ctx.convertTo k left
  else throw (.coercionFailed k)

def convertBothTo (ctx : Context) (k : Kind) (left right : Value) : Except ValueError Value :=
  match k with
  | .empty | .container => ctx.convertEither k left right
  | .text => (ctx.convertBoth .text left right).map Target.text.toValue
  | .integer => (ctx.convertBoth .integer left right).map Target.integer.toValue
  | .decimal => (ctx.convertBoth .decimal left right).map Target.decimal.toValue
  | .number => (ctx.convertBoth .number left right).map Target.number.toValue
  | .boolean => (ctx.convertBoth .boolean left right).map Target.boolean.toValue
  | .binary => (ctx.convertBoth .binary left right).map Target.binary.toValue
  | .dictionary => (ctx.convertBoth .dictionary left right).map Target.dictionary.toValue
  | .list => (ctx.convertBoth .list left right).map Target.list.toValue
  | .date => (ctx.convertBoth .date left right).map Target.date.toValue

end Context

end ScriptValue
