import ScriptValue.Proofs.Number.Embedding
import Mathlib.Data.Rat.Cast.Order
import Mathlib.Data.Sign.Basic

/-!
Numbers of which nothing is lost: their finite values form an ordered ring. An operation with an
undefined operand comes down to the sides of zero that its operands lie on, and these are reckoned
with as the signs of a ring are; so the laws of the ring hold of infinities and of nan as well.
-/

namespace ScriptValue

class OrderedMagnitude (R : Type) [CommRing R] [LinearOrder R] [IsStrictOrderedRing R]
    [Magnitude R] : Prop where
  ofInt_eq (n : Int) : (Magnitude.ofInt n : R) = n
  neg_eq (a : R) : Magnitude.neg a = -a
  sign_eq (a : R) : Magnitude.sign a = SignType.sign a

instance : OrderedMagnitude Int where
  ofInt_eq _ := rfl
  neg_eq _ := rfl
  sign_eq := Int.sign_eq_sign

instance : Magnitude ℚ where
  ofInt n := n
  sign q := SignType.sign q
  neg q := -q

instance : OrderedMagnitude ℚ where
  ofInt_eq _ := rfl
  neg_eq _ := rfl
  sign_eq _ := rfl

namespace Extended

section Undefined

variable {α : Type} {x y : Extended α}

theorem exists_eq_finite (h : ¬x.state.isDefined = false) : ∃ a, x = finite a := by
  cases x with
  | finite a => exact ⟨a, rfl⟩
  | _ => exact absurd rfl h

@[elab_as_elim]
theorem operand_cases {P : Extended α → Extended α → Prop}
    (finite : ∀ a b, P (finite a) (finite b))
    (undefined : ∀ x y, x.state.isDefined = false ∨ y.state.isDefined = false → P x y)
    (x y : Extended α) : P x y := by
  by_cases h : x.state.isDefined = false ∨ y.state.isDefined = false
  · exact undefined x y h
  · obtain ⟨hx, hy⟩ := not_or.1 h
    obtain ⟨a, rfl⟩ := exists_eq_finite hx
    obtain ⟨b, rfl⟩ := exists_eq_finite hy
    exact finite a b

theorem isDefined_state_ofSide (s : Int) : (ofSide s : Extended α).state.isDefined = false := by
  unfold ofSide
  split
  · rfl
  · split <;> rfl

variable [Magnitude α]

theorem side_ofSide (s : Int) : (ofSide s : Extended α).side = s.sign := by
  obtain h | rfl | h := lt_trichotomy s 0
  · rw [ofSide, if_neg h.not_gt, if_pos h, Int.sign_eq_neg_one_of_neg h]
    rfl
  · rfl
  · rw [ofSide, if_pos h, Int.sign_eq_one_of_pos h]
    rfl

theorem ofSide_side (h : x.state.isDefined = false) : ofSide x.side = x := by
  cases x with
  | finite => cases h
  | _ => rfl

theorem times_comm {product : α → α → Extended α} (h : ∀ a b, product a b = product b a)
    (x y : Extended α) : times product x y = times product y x := by
  induction x, y using operand_cases with
  | finite a b => exact h a b
  | undefined x y hxy => rw [times_eq_ofSide _ hxy, times_eq_ofSide _ hxy.symm, mul_comm]

theorem power_eq_ofSide (raise : α → Nat → Extended α) (h : x.state.isDefined = false) {n : Nat}
    (hn : n ≠ 0) : power raise x n = ofSide (x.side ^ n) := by
  refine (if_neg hn).trans ?_
  cases x with
  | finite => cases h
  | nan =>
    rw [side, zero_pow hn]
    rfl
  | infinity =>
    rw [side, one_pow]
    rfl
  | negInfinity =>
    obtain heven | hodd := Nat.even_or_odd n
    · rw [side, heven.neg_one_pow]
      exact if_neg (Nat.mod_two_ne_one.2 (Nat.even_iff.1 heven))
    · rw [side, hodd.neg_one_pow]
      exact if_pos (Nat.odd_iff.1 hodd)

end Undefined

namespace Exact

section Ring

variable {R : Type} [CommRing R]

def plus : Extended R → Extended R → Extended R := Extended.plus fun a b => finite (a + b)

def minus : Extended R → Extended R → Extended R := Extended.minus fun a b => finite (a - b)

theorem plus_comm (x y : Extended R) : plus x y = plus y x := by
  cases x <;> cases y
  case finite.finite a b => exact congrArg finite (add_comm a b)
  all_goals rfl

theorem plus_assoc (x y z : Extended R) : plus (plus x y) z = plus x (plus y z) := by
  cases x <;> cases y <;> cases z
  case finite.finite.finite a b c => exact congrArg finite (add_assoc a b c)
  all_goals rfl

variable [Magnitude R]

def times : Extended R → Extended R → Extended R := Extended.times fun a b => finite (a * b)

def power : Extended R → Nat → Extended R := Extended.power fun a n => finite (a ^ n)

theorem times_comm (x y : Extended R) : times x y = times y x :=
  Extended.times_comm (fun a b => congrArg finite (mul_comm a b)) x y

theorem power_zero (x : Extended R) : power x 0 = one := rfl

end Ring

open OrderedMagnitude

variable {R : Type} [CommRing R] [LinearOrder R] [IsStrictOrderedRing R] [Magnitude R]
  [OrderedMagnitude R] (x y z : Extended R)

theorem plus_zero : plus x zero = x := by
  cases x with
  | finite a =>
    change finite (a + Magnitude.ofInt 0) = finite a
    rw [ofInt_eq, Int.cast_zero, add_zero]
  | _ => rfl

theorem minus_eq_plus_negate : minus x y = plus x y.negate := by
  cases x <;> cases y
  case finite.finite a b =>
    change finite (a - b) = finite (a + Magnitude.neg b)
    rw [neg_eq, sub_eq_add_neg]
  all_goals rfl

theorem negate_negate : x.negate.negate = x := by
  cases x with
  | finite a => rw [negate, negate, neg_eq, neg_eq, neg_neg]
  | _ => rfl

theorem side_finite (a : R) : (finite a).side = SignType.sign a := sign_eq a

theorem side_one : (one : Extended R).side = 1 := by
  rw [one, ofInt_eq, side_finite, Int.cast_one, sign_one, SignType.coe_one]

theorem side_negate : x.negate.side = -x.side := by
  cases x with
  | finite a => rw [negate, neg_eq, side_finite, side_finite, Left.sign_neg, SignType.coe_neg]
  | _ => rfl

theorem sign_side : x.side.sign = x.side := by
  cases x with
  | finite a =>
    rw [side_finite]
    cases SignType.sign a <;> rfl
  | _ => rfl

theorem side_times : (times x y).side = x.side * y.side := by
  induction x, y using operand_cases with
  | finite a b =>
    change (finite (a * b)).side = _
    rw [side_finite, side_finite, side_finite, sign_mul, SignType.coe_mul]
  | undefined x y h =>
    rw [times, times_eq_ofSide _ h, side_ofSide, Int.sign_mul, sign_side, sign_side]

variable {x y z} in
theorem negate_eq_self (h : x.side = 0) : x.negate = x := by
  cases x with
  | finite a =>
    have hside (s : SignType) : (s : Int) = 0 → s = 0 := by cases s <;> decide
    rw [side_finite] at h
    rw [negate, neg_eq, sign_eq_zero_iff.1 (hside _ h), neg_zero]
  | nan => rfl
  | infinity => cases h
  | negInfinity => cases h

theorem abs_negate : x.negate.abs = x.abs := by
  simp only [abs, isNegative, side_negate, negate_negate, decide_eq_true_eq]
  obtain h | h | h := lt_trichotomy x.side 0
  · rw [if_neg (by omega), if_pos h]
  · rw [if_neg (by omega), if_neg (by omega), negate_eq_self h]
  · rw [if_pos (by omega), if_neg (by omega)]

theorem times_one : times x one = x := by
  by_cases h : x.state.isDefined = false
  · rw [times, times_eq_ofSide _ (.inl h), side_one, mul_one, ofSide_side h]
  · obtain ⟨a, rfl⟩ := exists_eq_finite h
    change finite (a * Magnitude.ofInt 1) = finite a
    rw [ofInt_eq, Int.cast_one, mul_one]

variable {x y z} in
theorem times_times_eq_ofSide
    (h : (x.state.isDefined = false ∨ y.state.isDefined = false) ∨ z.state.isDefined = false) :
    times (times x y) z = ofSide (x.side * y.side * z.side) := by
  have hfactor : (times x y).state.isDefined = false ∨ z.state.isDefined = false := by
    refine h.imp_left fun hxy => ?_
    rw [times, times_eq_ofSide _ hxy]
    exact isDefined_state_ofSide _
  rw [← side_times]
  exact times_eq_ofSide _ hfactor

theorem times_assoc : times (times x y) z = times x (times y z) := by
  by_cases h : (x.state.isDefined = false ∨ y.state.isDefined = false) ∨ z.state.isDefined = false
  · have hrotated :
        (y.state.isDefined = false ∨ z.state.isDefined = false) ∨ x.state.isDefined = false := by
      rwa [or_assoc, or_comm] at h
    -- what is left are the three sides, and these are integers
    calc
      times (times x y) z = ofSide (x.side * y.side * z.side) := times_times_eq_ofSide h
      _ = ofSide (y.side * z.side * x.side) := by rw [mul_assoc, mul_comm]
      _ = times (times y z) x := (times_times_eq_ofSide hrotated).symm
      _ = times x (times y z) := times_comm _ _
  · obtain ⟨hxy, hz⟩ := not_or.1 h
    obtain ⟨hx, hy⟩ := not_or.1 hxy
    obtain ⟨a, rfl⟩ := exists_eq_finite hx
    obtain ⟨b, rfl⟩ := exists_eq_finite hy
    obtain ⟨c, rfl⟩ := exists_eq_finite hz
    exact congrArg finite (mul_assoc a b c)

theorem power_finite (a : R) (n : Nat) : power (finite a) n = finite (a ^ n) := by
  cases n with
  | zero => rw [power_zero, one, ofInt_eq, Int.cast_one, pow_zero]
  | succ n => rfl

theorem side_power (n : Nat) : (power x n).side = x.side ^ n := by
  by_cases h : x.state.isDefined = false
  · cases n with
    | zero => rw [power_zero, side_one, pow_zero]
    | succ n =>
      rw [power, power_eq_ofSide _ h n.succ_ne_zero, side_ofSide, Int.sign_eq_sign, sign_pow,
        SignType.coe_pow, ← Int.sign_eq_sign, sign_side]
  · obtain ⟨a, rfl⟩ := exists_eq_finite h
    rw [power_finite, side_finite, side_finite, sign_pow, SignType.coe_pow]

theorem power_succ (n : Nat) : power x (n + 1) = times (power x n) x := by
  by_cases h : x.state.isDefined = false
  · rw [power, power_eq_ofSide _ h n.succ_ne_zero, times, times_eq_ofSide _ (.inr h), ← power,
      side_power, pow_succ]
  · obtain ⟨a, rfl⟩ := exists_eq_finite h
    rw [power_finite, power_finite, pow_succ]
    rfl

theorem power_add (m n : Nat) : power x (m + n) = times (power x m) (power x n) := by
  induction n with
  | zero => rw [power_zero, times_one, Nat.add_zero]
  | succ n ih =>
    calc
      power x (m + (n + 1)) = times (power x (m + n)) x := power_succ x (m + n)
      _ = times (power x m) (times (power x n) x) := by rw [ih, times_assoc]
      _ = times (power x m) (power x (n + 1)) := by rw [power_succ]

end Exact

end Extended

end ScriptValue
