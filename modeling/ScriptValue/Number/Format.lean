import ScriptValue.Number.Literal

namespace ScriptValue

structure NumberFormat where
  minWhole : Nat
  minFraction : Nat
  maxFraction : Nat
  pattern : Text
  deriving DecidableEq, Repr

namespace NumberFormat

def standard : NumberFormat := ⟨1, 0, 6, "0.######".toList⟩

/--
Zeros and hashes before the point, of which the zeros count; after it zeros and then hashes, no more
than a decimal keeps digits. Either part may be missing, but not all of the pattern.
-/
def parse (pattern : Text) : Except NumberError NumberFormat :=
  let (whole, fraction) := (pattern.splitFirst '.').getD (pattern, [])
  let zeros := fraction.takeWhile (· = '0')
  if pattern = [] ∨ !whole.all (fun c => c = '0' || c = '#') ∨
      !(fraction.dropWhile (· = '0')).all (· = '#') ∨ maxScale < fraction.length then
    .error (.invalidFormat pattern)
  else .ok ⟨whole.count '0', zeros.length, fraction.length, pattern⟩

def showPositional (f : NumberFormat) (p : Positional) : Text :=
-- a lone zero before the point is left out where the pattern asks for no digit there
  let whole := if f.minWhole = 0 ∧ p.whole = ['0'] ∧ p.fraction ≠ [] then [] else p.whole
  Positional.render ⟨p.negative, whole.leftpad f.minWhole '0',
    p.fraction.rightpad f.minFraction '0'⟩

def showInteger (f : NumberFormat) : Integer → Text
  | .finite n => f.showPositional (.ofInt n)
  | x => x.render

def showDecimal (f : NumberFormat) (x : Decimal) : Text :=
  match x.roundTo f.maxFraction .halfEven with
  | .finite y => f.showPositional (.ofScaled y)
  | y => y.render

def showNumber (f : NumberFormat) : Number → Text
  | .integer n => f.showInteger n
  | .decimal d => f.showDecimal d

end NumberFormat

end ScriptValue
