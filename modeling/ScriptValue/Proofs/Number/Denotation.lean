import ScriptValue.Proofs.Number.Same
import Mathlib.Algebra.Order.Field.Rat
import Mathlib.Algebra.Order.Ring.Cast
import Mathlib.Tactic.FieldSimp

namespace ScriptValue

theorem tenTo_add (m n : Nat) : tenTo (m + n) = tenTo m * tenTo n := Nat.pow_add 10 m n

theorem tenTo_ne_zero (n : Nat) : (tenTo n : ℚ) ≠ 0 := Nat.cast_ne_zero.2 (tenTo_pos n).ne'

namespace Scaled

variable {x y : Scaled}

def toRat (x : Scaled) : ℚ := x.unscaled / tenTo x.scale

theorem cast_unscaledAt {s : Nat} (h : x.scale ≤ s) :
    (x.unscaledAt s : ℚ) = x.toRat * tenTo s := by
  have hscale : (tenTo s : ℚ) = tenTo (s - x.scale) * tenTo x.scale := by
    rw [← Nat.cast_mul, ← tenTo_add, Nat.sub_add_cancel h]
  have hne : (tenTo x.scale : ℚ) ≠ 0 := tenTo_ne_zero x.scale
  rw [unscaledAt, toRat, hscale]
  push_cast
  field_simp

theorem compare_toRat (x y : Scaled) : x.compare y = Ord.compare x.toRat y.toRat := by
  let s := max x.scale y.scale
  have hpos : (0 : ℚ) < tenTo s := Nat.cast_pos.2 (tenTo_pos s)
  calc
    x.compare y = cmp (x.unscaledAt s) (y.unscaledAt s) := (cmp_eq_compare _ _).symm
    _ = cmp (x.unscaledAt s : ℚ) (y.unscaledAt s : ℚ) :=
      (Int.cast_strictMono.cmp_map_eq _ _).symm
    _ = cmp (x.toRat * tenTo s) (y.toRat * tenTo s) := by
      rw [cast_unscaledAt (Nat.le_max_left ..), cast_unscaledAt (Nat.le_max_right ..)]
    _ = cmp x.toRat y.toRat := cmp_mul_pos_right hpos _ _
    _ = Ord.compare x.toRat y.toRat := cmp_eq_compare _ _

theorem toRat_injective : Function.Injective toRat := by
  intro x y h
  rw [← compare_eq_iff, compare_toRat, h]
  exact compare_eq_iff_eq.2 rfl

@[simp] theorem toRat_ofInt (n : Int) : (ofInt n).toRat = n := by
  simp [toRat, ofInt]

theorem toRat_neg (x : Scaled) : x.neg.toRat = -x.toRat := by
  rw [toRat, toRat, ← neg_div, ← Int.cast_neg]
  rfl

end Scaled

namespace Number

def value? : Number → Option ℚ
  | integer (.finite n) => some n
  | decimal (.finite x) => some x.toRat
  | _ => none

theorem value?_toDecimal (x : Number) : (decimal x.toDecimal).value? = x.value? := by
  obtain (_ | _ | _ | _) | d := x
  case integer.finite n => exact congrArg some (Scaled.toRat_ofInt n)
  all_goals rfl

theorem isSome_value? (x : Number) : x.value?.isSome = x.isDefined := by
  obtain (_ | _ | _ | _) | (_ | _ | _ | _) := x <;> rfl

end Number

end ScriptValue
