import ScriptValue.Number.Integer
import ScriptValue.Number.Power
import ScriptValue.Number.Rounding

namespace ScriptValue

def maxScale : Nat := 4294967295

/-- A number `unscaled / 10 ^ scale` whose fraction does not end in a zero. -/
structure Scaled where
  unscaled : Int
  scale : Nat
  scale_le : scale ≤ maxScale
  reduced : scale = 0 ∨ unscaled % 10 ≠ 0
  deriving DecidableEq, Repr

namespace Scaled

def strip (unscaled : Int) : Nat → Int × Nat
  | 0 => (unscaled, 0)
  | scale + 1 => if unscaled % 10 = 0 then strip (unscaled / 10) scale else (unscaled, scale + 1)

theorem strip_scale_le (u : Int) (s : Nat) : (strip u s).2 ≤ s := by
  induction s generalizing u with
  | zero => exact Nat.le_refl 0
  | succ s ih =>
    rw [strip]
    split
    · exact Nat.le_succ_of_le (ih _)
    · exact Nat.le_refl _

theorem strip_reduced (u : Int) (s : Nat) : (strip u s).2 = 0 ∨ (strip u s).1 % 10 ≠ 0 := by
  induction s generalizing u with
  | zero => exact .inl rfl
  | succ s ih =>
    rw [strip]
    split
    · exact ih _
    · exact .inr ‹_›

def ofInt (n : Int) : Scaled := ⟨n, 0, by decide, .inl rfl⟩

def reduce (unscaled : Int) (scale : Nat) (h : scale ≤ maxScale) : Scaled :=
  if unscaled = 0 then ofInt 0
  else
    ⟨(strip unscaled scale).1, (strip unscaled scale).2,
      Nat.le_trans (strip_scale_le _ _) h, strip_reduced _ _⟩

def unscaledAt (x : Scaled) (scale : Nat) : Int := x.unscaled * tenTo (scale - x.scale)

theorem neg_emod_ten {n : Int} (h : n % 10 ≠ 0) : -n % 10 ≠ 0 := by omega

def neg (x : Scaled) : Scaled :=
  ⟨-x.unscaled, x.scale, x.scale_le, x.reduced.imp_right neg_emod_ten⟩

def compare (x y : Scaled) : Ordering :=
  let scale := max x.scale y.scale
  Ord.compare (x.unscaledAt scale) (y.unscaledAt scale)

end Scaled

instance : Magnitude Scaled where
  ofInt := Scaled.ofInt
  sign x := x.unscaled.sign
  neg := Scaled.neg

abbrev Decimal := Extended Scaled

namespace Decimal

def divisionScale : Nat := 32

def ofScaled (unscaled : Int) (scale : Nat) : Decimal :=
  if h : scale ≤ maxScale then .finite (.reduce unscaled scale h) else .nan

def ofInt (n : Int) : Decimal := .finite (.ofInt n)

def ofInteger : Integer → Decimal
  | .finite n => ofInt n
  | .nan => .nan
  | .infinity => .infinity
  | .negInfinity => .negInfinity

def unscaled : Decimal → Int
  | .finite x => x.unscaled
  | x => x.side

def scale : Decimal → Nat
  | .finite x => x.scale
  | _ => 0

def isIntegral (x : Decimal) : Bool := x.state.isDefined && x.scale == 0

def toInteger : Decimal → Integer
  | .finite x => .finite (x.unscaled.tdiv (tenTo x.scale))
  | .nan => .nan
  | .infinity => .infinity
  | .negInfinity => .negInfinity

def plus : Decimal → Decimal → Decimal := Extended.plus fun x y =>
  let scale := max x.scale y.scale
  ofScaled (x.unscaledAt scale + y.unscaledAt scale) scale

def minus : Decimal → Decimal → Decimal := Extended.minus fun x y =>
  let scale := max x.scale y.scale
  ofScaled (x.unscaledAt scale - y.unscaledAt scale) scale

def times : Decimal → Decimal → Decimal := Extended.times fun x y =>
  ofScaled (x.unscaled * y.unscaled) (x.scale + y.scale)

def divide (scale : Nat) (mode : Rounding) : Decimal → Decimal → Decimal :=
  Extended.quotient fun x y =>
-- the operand that has too few digits is extended, whichever of the two it is
    let up := tenTo (min (scale + y.scale - x.scale) maxScale)
    let down := tenTo (min (x.scale - (scale + y.scale)) maxScale)
    ofScaled (mode.divide (x.unscaled * up) (y.unscaled * down)) scale

def quotient : Decimal → Decimal → Decimal := divide divisionScale .halfEven

def modulo : Decimal → Decimal → Decimal := Extended.modulo fun x y =>
  let scale := max x.scale y.scale
  ofScaled ((x.unscaledAt scale).tmod (y.unscaledAt scale)) scale

def power : Decimal → Nat → Decimal := Extended.power fun x n =>
  if x.scale * n ≤ maxScale then ofScaled (x.unscaled.pow n) (x.scale * n) else .nan

def roundTo (scale : Nat) (mode : Rounding) : Decimal → Decimal
  | .finite x =>
    if x.scale ≤ scale then .finite x
    else ofScaled (mode.divide x.unscaled (tenTo (x.scale - scale))) scale
  | x => x

def truncate (x : Decimal) : Decimal := x.roundTo 0 .down

def floor (x : Decimal) : Decimal := x.roundTo 0 .floor

def frac : Decimal → Decimal
  | .finite x => minus (.finite x) (truncate (.finite x))
  | _ => .nan

def compare : Decimal → Decimal → Ordering := Extended.compare Scaled.compare

end Decimal

end ScriptValue
