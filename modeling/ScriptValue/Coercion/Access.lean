import ScriptValue.Chunk.Edit
import ScriptValue.Coercion.Target
import ScriptValue.Text.Letter
import ScriptValue.Value.Elements

/-!
Reading values that refer to others. Plain values are read by recursion on the value; a container is
read through what it refers to, which may be any value and may lead back to the container. So every
operation under way on a container takes one of a limited number of levels, and an access is what
can be done with the levels that are left.
-/

namespace ScriptValue

variable [DateLibrary]

structure Context where
  config : Config
  lookup? : Text → Option Value

def Context.ofConfig (c : Config) : Context := ⟨c, fun _ => none⟩

structure Access where
  context : Context
  read : Container → Except ValueError Value
  text : Container → Except ValueError Text
  convert : {α : Type} → Target α → Container → Except ValueError α

namespace Access

def config (a : Access) : Config := a.context.config

def resolveWithin (a : Access) : Nat → Value → Except ValueError Value
  | 0, _ => .error .tooDeep
  | n + 1, v =>
    match v.container? with
    | none => .ok v
    | some c => (a.read c).bind (resolveWithin a n)

def resolve (a : Access) (v : Value) : Except ValueError Value := a.resolveWithin maxDepth v

mutual
def textOf (a : Access) : Value → Except ValueError Text
  | .empty => .ok []
  | .text t => .ok t
  | .integer n => .ok (a.config.numberFormat.showInteger n)
  | .decimal d => .ok (a.config.numberFormat.showDecimal d)
  | .boolean b => .ok (if b then "true" else "false").toList
  | .binary bs => .ok (Utf8.decode bs)
  | .dictionary es => (entryTexts a es).map Block.render
  | .list vs => (texts a vs).map fun ts => [a.config.delimiters.item].intercalate ts
  | .date d => .ok (DateLibrary.format d a.config.datePattern)
  | .variable name => a.text (.variable name)
  | .part parent address => a.text (.part parent address)
termination_by structural v => v

def texts (a : Access) : List Value → Except ValueError (List Text)
  | [] => .ok []
  | v :: vs => do
    let t ← textOf a v
    let ts ← texts a vs
    return t :: ts
termination_by structural vs => vs

def entryTexts (a : Access) : List (Text × Value) → Except ValueError (Entries Text)
  | [] => .ok []
  | (k, v) :: es => do
    let t ← textOf a v
    let ts ← entryTexts a es
    return (k, t) :: ts
termination_by structural es => es
end

def convertWhole {α : Type} (a : Access) (T : Target α) (v : Value) : Except ValueError α :=
  match T.ofValue? v <|> (if v.isEmpty then T.ofEmpty? else none) <|> T.direct? v with
  | some x => .ok x
  | none => do
    match T.parse? a.config (← a.textOf v) with
    | some x => .ok x
    | none => .error (.coercionFailed T.kind)

mutual
/--
Turns a value into a target. A list of one element is turned into what the element is turned into,
where that works; else a value is of the kind already, or empty, or has a meaning of its own, or its
text is read.
-/
def convertValue {α : Type} (a : Access) (T : Target α) : Value → Except ValueError α
  | .variable name => a.convert T (.variable name)
  | .part parent address => a.convert T (.part parent address)
  | .list vs =>
    match convertOnly a T vs with
    | some x => .ok x
    | none => a.convertWhole T (.list vs)
  | v => a.convertWhole T v
termination_by structural v => v

def convertOnly {α : Type} (a : Access) (T : Target α) : List Value → Option α
  | [v] => if T.opensSingletons then (convertValue a T v).toOption else none
  | _ => none
termination_by structural vs => vs
end

def readPart (a : Access) (v : Value) : Address → Except ValueError Value
  | .key k => do
    let d ← a.convertValue .dictionary v
    return (d.get? k).getD .empty
  | .chunk spec => do
    match v with
    | .list vs =>
      if spec.kind.isElement then return Elements.extract spec vs
      else return .text (extract a.config.delimiters spec (← a.textOf v))
    | .binary bs => return .binary (extract a.config.delimiters spec bs)
    | .dictionary _ => throw (.notAddressable spec .dictionary)
    | v => return .text (extract a.config.delimiters spec (← a.textOf v))

/--
Access by way of what can be done inside of a container, if any level is left. A variable that is
not declared stands for its own name.
-/
def through (ctx : Context) (inner : Option Access) : Access where
  context := ctx
  read
    | .variable name => .ok ((ctx.lookup? name).getD (.text name))
    | .part parent address => do
      let some a := inner | throw .tooDeep
      a.readPart (← a.resolve parent) address
  text c := do
    let some a := inner | throw .tooDeep
    a.textOf (← a.resolve c.toValue)
  convert T c := do
    let some a := inner | throw .tooDeep
    a.convertValue T (← a.resolve c.toValue)

end Access

namespace Context

def access (ctx : Context) : Nat → Access
  | 0 => .through ctx none
  | n + 1 => .through ctx (some (ctx.access n))

def outer (ctx : Context) : Access := ctx.access maxDepth

def within (ctx : Context) : Access := ctx.access (maxDepth - 1)

def value (ctx : Context) (v : Value) : Except ValueError Value :=
  match v.container? with
  | none => .ok v
  | some c => ctx.outer.read c

def resolve (ctx : Context) (v : Value) : Except ValueError Value := ctx.outer.resolve v

def text (ctx : Context) (v : Value) : Except ValueError Text := ctx.outer.textOf v

def elements (ctx : Context) (v : Value) : Except ValueError (List Value) :=
  (ctx.resolve v).map fun
    | .list vs => vs
    | v => [v]

end Context

namespace Value

def asContainer (byName : Bool) (v : Value) : Except ValueError Container :=
  match v.container?, v with
  | some c, _ => .ok c
  | none, .text t =>
-- the text of a name is a place too, where that is asked for
    if byName && t.isIdentifier then .ok (.variable t) else .error (.textNoContainer t)
  | none, v => .error (.kindNoContainer v.kind)

end Value

end ScriptValue
