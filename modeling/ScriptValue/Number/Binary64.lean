import ScriptValue.Number.Basic
import ScriptValue.Number.Power

/-!
Numbers in the 64-bit binary format of IEEE 754. A word is decoded into a significand and a power of
two; numbers are rounded to the nearest word, a tie to the even one, and a word becomes a decimal by
the fewest digits that only this word is nearest to.
-/

namespace ScriptValue

structure Binary64 where
  bits : UInt64
  deriving DecidableEq, Repr

namespace Binary64

def minExponent : Int := -1074

def negative (w : Binary64) : Bool := w.bits.toNat / twoTo 63 == 1

def exponentField (w : Binary64) : Nat := w.bits.toNat / twoTo 52 % twoTo 11

def fractionField (w : Binary64) : Nat := w.bits.toNat % twoTo 52

def state (w : Binary64) : NumberState :=
  if w.exponentField ≠ 2047 then .defined
  else if w.fractionField ≠ 0 then .nan
  else if w.negative then .negInfinity else .infinity

def significand (w : Binary64) : Nat :=
  if w.exponentField = 0 then w.fractionField else twoTo 52 + w.fractionField

def exponent (w : Binary64) : Int := minExponent + (w.exponentField - 1 : Nat)

def ofFields (negative : Bool) (magnitude : Nat) : Binary64 :=
  ⟨.ofNat ((if negative then twoTo 63 else 0) + magnitude)⟩

def nan : Binary64 := ofFields false (2047 * twoTo 52 + twoTo 51)

def infinity (negative : Bool) : Binary64 := ofFields negative (2047 * twoTo 52)

def log2Ratio (n d : Nat) : Int :=
  let e : Int := (n.log2 : Int) - d.log2
-- the difference of the logarithms is the exponent or one too large
  if n * twoTo (-e).toNat < d * twoTo e.toNat then e - 1 else e

/--
The word nearest to `n / d`. A significand that rounds up to a power of two carries into the
exponent, and beyond the greatest exponent there is the infinity.
-/
def ofRatio (negative : Bool) (n d : Nat) : Binary64 :=
  if n = 0 then ofFields negative 0
  else
    let e := log2Ratio n d
    if 1023 < e then infinity negative
    else
      let shift := max (e - 52) minExponent
      let m := (Rounding.halfEven.divide (n * twoTo (-shift).toNat) (d * twoTo shift.toNat)).toNat
      if m < twoTo 52 then ofFields negative m
      else ofFields negative ((shift - minExponent + 1).toNat * twoTo 52 + (m - twoTo 52))

def onGrid (w : Binary64) (grid : Int) (n : Nat) : Nat × Nat :=
  let e := w.exponent - 2
  (n * twoTo e.toNat * tenTo (-grid).toNat, twoTo (-e).toNat * tenTo grid.toNat)

/--
The multiple of `10 ^ grid` that reads back as the finite word `w`, if there is one: of the two
neighbours of its value the nearer that does, and of two that are equally near the greater. The
numbers that read back lie within half a unit of the value; the unit below a power of two is half as
large, and the ends belong to the even significands.
-/
def pointOnGrid? (w : Binary64) (grid : Int) : Option Nat :=
  let m := 4 * w.significand
  let below := if w.fractionField = 0 ∧ 1 < w.exponentField then 1 else 2
  let (v, unit) := w.onGrid grid m
  let (low, _) := w.onGrid grid (m - below)
  let (high, _) := w.onGrid grid (m + 2)
  let even := w.significand % 2 == 0
  let n := v / unit
  let down := decide (low < n * unit) || (even && low == n * unit)
  let up := decide ((n + 1) * unit < high) || (even && high == (n + 1) * unit)
  if down && (!up || 2 * (v % unit) < unit) then some n
  else if up then some (n + 1)
  else none

def shortestFrom (w : Binary64) : Nat → Nat × Int
  | 0 =>
    let (v, unit) := w.onGrid minExponent (4 * w.significand)
    (v / unit, minExponent)
  | fuel + 1 =>
    match w.pointOnGrid? (minExponent + (fuel + 1 : Nat)) with
    | some n => (n, minExponent + (fuel + 1 : Nat))
    | none => shortestFrom w fuel

def shortest (w : Binary64) : Nat × Int :=
  if w.significand = 0 then (0, 0) else w.shortestFrom (1074 + 309)

end Binary64

namespace Integer

def ofBinary64 (w : Binary64) : Integer :=
  match w.state with
  | .defined =>
    let n := w.significand * twoTo w.exponent.toNat / twoTo (-w.exponent).toNat
    .finite (if w.negative then -(n : Int) else n)
  | s => .ofState s

end Integer

namespace Decimal

def ofBinary64 (w : Binary64) : Decimal :=
  match w.state with
  | .defined =>
    let (n, g) := w.shortest
    let n := n * tenTo g.toNat
    ofScaled (if w.negative then -(n : Int) else n) (-g).toNat
  | s => .ofState s

def toBinary64 : Decimal → Binary64
  | .finite x => .ofRatio (decide (x.unscaled < 0)) x.unscaled.natAbs (tenTo x.scale)
  | .nan => .nan
  | .infinity => .infinity false
  | .negInfinity => .infinity true

end Decimal

namespace Integer

def toBinary64 (n : Integer) : Binary64 := (Decimal.ofInteger n).toBinary64

end Integer

namespace Number

def toBinary64 (x : Number) : Binary64 := x.toDecimal.toBinary64

end Number

end ScriptValue
