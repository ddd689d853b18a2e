import ScriptValue.Number.Basic
import ScriptValue.Text.Blank

namespace ScriptValue

inductive NumberError where
  | empty
  | invalid (t : Text)
  | exponentOutOfRange (t : Text)
  | notWhole (t : Text)
  | invalidFormat (t : Text)
  deriving DecidableEq, Repr

namespace NumberError

def message : NumberError → String
  | empty => "empty text is not a number"
  | invalid t => "'" ++ String.ofList t ++ "' is not a number"
  | exponentOutOfRange t => "exponent of '" ++ String.ofList t ++ "' is out of range"
  | notWhole t => "'" ++ String.ofList t ++ "' is not a whole number"
  | invalidFormat t => "'" ++ String.ofList t ++ "' is not a valid number format"

end NumberError

inductive Literal where
  | undefined (s : NumberState)
  | digits (negative : Bool) (whole fraction : Text) (exponent : Int)
  deriving DecidableEq, Repr

namespace Literal

def maxExponent : Nat := 10000

def undefined? (t : Text) : Option NumberState :=
  if t.isWord "nan" then some .nan
  else if t.isWord "infinity" || t.isWord "+infinity" then some .infinity
  else if t.isWord "-infinity" then some .negInfinity
  else none

def takeSign : Text → Bool × Text
  | '-' :: t => (true, t)
  | '+' :: t => (false, t)
  | t => (false, t)

def takeDigits (t : Text) : Text × Text := (t.takeWhile Char.isDigit, t.dropWhile Char.isDigit)

def takeFraction : Text → Text × Text
  | '.' :: t => takeDigits t
  | t => ([], t)

def value (digits : Text) : Nat := Nat.ofDigitChars 10 digits 0

def readExponent (t : Text) : Text → Except NumberError Int
  | [] => .ok 0
  | c :: rest =>
    if c ≠ 'e' ∧ c ≠ 'E' then .error (.invalid t)
    else
      let (negative, body) := takeSign rest
      if body = [] ∨ !body.all Char.isDigit then .error (.invalid t)
      else if maxExponent < value body then .error (.exponentOutOfRange t)
      else .ok (if negative then -(value body : Int) else value body)

def readTrimmed (t : Text) : Except NumberError Literal :=
  if t = [] then .error .empty
  else match undefined? t with
    | some s => .ok (.undefined s)
    | none =>
      let (negative, rest) := takeSign t
      let (whole, rest) := takeDigits rest
      let (fraction, rest) := takeFraction rest
      if whole = [] ∧ fraction = [] then .error (.invalid t)
      else (readExponent t rest).map fun e => .digits negative whole fraction e

def read (t : Text) : Except NumberError Literal := readTrimmed t.trim

end Literal

def signed (negative : Bool) (n : Nat) : Int := if negative then -n else n

namespace Integer

def parse (t : Text) : Except NumberError Integer :=
  match Literal.read t with
  | .error e => .error e
  | .ok (.undefined s) => .ok (.ofState s)
  | .ok (.digits negative whole fraction exponent) =>
    if exponent ≠ 0 ∨ whole = [] ∨ fraction.any (· ≠ '0') then .error (.notWhole t.trim)
    else .ok (.finite (signed negative (Literal.value whole)))

def render : Integer → Text
  | .finite n => (if n < 0 then ['-'] else []) ++ Nat.toDigits 10 n.natAbs
  | x => x.state.name.toList

end Integer

structure Positional where
  negative : Bool
  whole : Text
  fraction : Text
  deriving DecidableEq, Repr

namespace Positional

def ofInt (n : Int) : Positional := ⟨decide (n < 0), Nat.toDigits 10 n.natAbs, []⟩

def ofScaled (x : Scaled) : Positional :=
  let digits := (Nat.toDigits 10 x.unscaled.natAbs).leftpad (x.scale + 1) '0'
  ⟨decide (x.unscaled < 0), digits.take (digits.length - x.scale),
    digits.drop (digits.length - x.scale)⟩

def render (p : Positional) : Text :=
  (if p.negative then ['-'] else []) ++ p.whole ++
    if p.fraction = [] then [] else '.' :: p.fraction

end Positional

namespace Decimal

def parse (t : Text) : Except NumberError Decimal :=
  match Literal.read t with
  | .error e => .error e
  | .ok (.undefined s) => .ok (.ofState s)
  | .ok (.digits negative whole fraction exponent) =>
    let unscaled := signed negative (Literal.value (whole ++ fraction))
    let scale := fraction.length - exponent
    if maxScale < scale ∨ maxScale < -scale then .error (.exponentOutOfRange t.trim)
    else .ok (ofScaled (unscaled * tenTo (-scale).toNat) scale.toNat)

def render : Decimal → Text
  | .finite x => (Positional.ofScaled x).render
  | x => x.state.name.toList

end Decimal

namespace Number

def parse (t : Text) : Except NumberError Number :=
  match Integer.parse t with
  | .ok n => .ok (integer n)
  | .error .empty => .error .empty
  | .error _ => (Decimal.parse t).map decimal

def render : Number → Text
  | integer n => n.render
  | decimal d => d.render

def describe : Number → Text
  | integer n => "Integer(".toList ++ n.render ++ [')']
  | decimal d => "Decimal(".toList ++ d.render ++ [')']

end Number

end ScriptValue
