import ScriptValue.Coercion.Moment
import ScriptValue.Text.Utf8
import ScriptValue.Value.Block
import ScriptValue.Value.Error

namespace ScriptValue

variable [DateLibrary]

structure Target (α : Type) where
  kind : Kind
  toValue : α → Value
  ofValue? : Value → Option α
  /-- Whether a list of one element stands for the element. -/
  opensSingletons : Bool
  ofEmpty? : Option α
  /-- What values of other kinds mean, apart from their text. -/
  direct? : Value → Option α
  parse? : Config → Text → Option α
  /-- Puts two results together, where two values are turned into one. -/
  append? : Option (α → α → α)
  /-- Puts two values together that are both of this kind. -/
  merge? : Option (α → α → α)

namespace Target

def text : Target Text where
  kind := .text
  toValue := .text
  ofValue? := Value.text?
  opensSingletons := true
  ofEmpty? := some []
  direct? _ := none
  parse? _ t := some t
  append? := some (· ++ ·)
  merge? := none

def integer : Target Integer where
  kind := .integer
  toValue := .integer
  ofValue?
    | .integer n => some n
    | _ => none
  opensSingletons := true
  ofEmpty? := some .zero
  direct?
    | .decimal d => some d.toInteger
    | .date d => some (.finite (DateLibrary.unixSeconds d))
    | _ => none
  parse? _ t := (Integer.parse t).toOption
  append? := none
  merge? := none

def decimal : Target Decimal where
  kind := .decimal
  toValue := .decimal
  ofValue?
    | .decimal d => some d
    | _ => none
  opensSingletons := true
  ofEmpty? := some .zero
  direct?
    | .integer n => some (.ofInteger n)
    | .date d => some (.ofMoment d)
    | _ => none
  parse? _ t := (Decimal.parse t).toOption
  append? := none
  merge? := none

def number : Target Number where
  kind := .number
  toValue := .ofNumber
  ofValue?
    | .integer n => some (.integer n)
    | .decimal d => some (.decimal d)
    | _ => none
  opensSingletons := true
  ofEmpty? := some (.integer .zero)
  direct?
    | .date d => some (Number.decimal (.ofMoment d)).simplify
    | _ => none
  parse? _ t := (Number.parse t).toOption
  append? := none
  merge? := none

def boolean : Target Bool where
  kind := .boolean
  toValue := .boolean
  ofValue?
    | .boolean b => some b
    | _ => none
  opensSingletons := true
  ofEmpty? := none
  direct? _ := none
  parse? _ t :=
    if t.trim.isWord "true" then some true
    else if t.trim.isWord "false" then some false
    else none
  append? := none
  merge? := none

def binary : Target (List UInt8) where
  kind := .binary
  toValue := .binary
  ofValue?
    | .binary bs => some bs
    | _ => none
  opensSingletons := true
  ofEmpty? := some []
  direct? _ := none
  parse? _ t := some (Utf8.encode t)
  append? := some (· ++ ·)
  merge? := none

def dictionary : Target Dictionary where
  kind := .dictionary
  toValue := .dictionary
  ofValue?
    | .dictionary es => some es
    | _ => none
  opensSingletons := true
  ofEmpty? := some []
  direct? _ := none
  parse? _ t := Block.parse t
  append? := none
  merge? := some Entries.merge

def list : Target (List Value) where
  kind := .list
  toValue := .list
  ofValue?
    | .list vs => some vs
    | _ => none
  opensSingletons := false
  ofEmpty? := some []
  direct? v := some [v]
  parse? _ t := some [.text t]
  append? := some (· ++ ·)
  merge? := none

def date : Target DateLibrary.Moment where
  kind := .date
  toValue := .date
  ofValue?
    | .date d => some d
    | _ => none
  opensSingletons := true
  ofEmpty? := none
  direct?
    | .integer n => DateLibrary.ofUnixInteger? n
    | .decimal x => DateLibrary.ofUnixDecimal? x
    | _ => none
  parse? c t := DateLibrary.parse? c.datePattern t
  append? := none
  merge? := none

end Target

end ScriptValue
