import ScriptValue.Number.Basic

/-!
Whole numbers among the decimals. An operation that agrees on finite values with one on another sort
of finite value agrees with it on every number, since what is made of the other states is the same
for both; and a decimal without a fraction is reckoned with as the whole number is.
-/

namespace ScriptValue

namespace Extended

variable {α β : Type}

def map (f : α → β) : Extended α → Extended β
  | finite a => finite (f a)
  | nan => nan
  | infinity => infinity
  | negInfinity => negInfinity

section Map

variable (f : α → β)

@[simp] theorem map_finite (a : α) : (finite a).map f = finite (f a) := rfl

@[simp] theorem map_nan : nan.map f = nan := rfl

@[simp] theorem map_infinity : infinity.map f = infinity := rfl

@[simp] theorem map_negInfinity : negInfinity.map f = negInfinity := rfl

@[simp] theorem map_ofSide (s : Int) : (ofSide s).map f = ofSide s := by
  unfold ofSide
  split
  · rfl
  · split <;> rfl

end Map

theorem map_compare {f : α → β} {order : α → α → Ordering} {order' : β → β → Ordering}
    (h : ∀ a b, order' (f a) (f b) = order a b) (x y : Extended α) :
    compare order' (x.map f) (y.map f) = compare order x y := by
  cases x <;> cases y
  case finite.finite a b => exact h a b
  all_goals rfl

theorem map_plus {f : α → β} {sum : α → α → Extended α} {sum' : β → β → Extended β}
    (h : ∀ a b, (sum a b).map f = sum' (f a) (f b)) (x y : Extended α) :
    (plus sum x y).map f = plus sum' (x.map f) (y.map f) := by
  cases x <;> cases y
  case finite.finite a b => exact h a b
  all_goals rfl

theorem map_minus {f : α → β} {difference : α → α → Extended α} {difference' : β → β → Extended β}
    (h : ∀ a b, (difference a b).map f = difference' (f a) (f b)) (x y : Extended α) :
    (minus difference x y).map f = minus difference' (x.map f) (y.map f) := by
  cases x <;> cases y
  case finite.finite a b => exact h a b
  all_goals rfl

variable [Magnitude α] [Magnitude β]

theorem times_eq_ofSide (product : α → α → Extended α) {x y : Extended α}
    (h : x.state.isDefined = false ∨ y.state.isDefined = false) :
    times product x y = ofSide (x.side * y.side) := by
  cases x <;> cases y
  case finite.finite => exact (h.elim nofun nofun)
  all_goals rfl

structure Embedding (f : α → β) : Prop where
  ofInt : ∀ n, f (Magnitude.ofInt n) = Magnitude.ofInt n
  sign : ∀ a, Magnitude.sign (f a) = Magnitude.sign a
  neg : ∀ a, f (Magnitude.neg a) = Magnitude.neg (f a)

namespace Embedding

variable {f : α → β} (hf : Embedding f)

include hf

theorem map_zero : zero.map f = zero := congrArg finite (hf.ofInt 0)

theorem map_one : one.map f = one := congrArg finite (hf.ofInt 1)

theorem side_map (x : Extended α) : (x.map f).side = x.side := by
  cases x with
  | finite a => exact hf.sign a
  | _ => rfl

theorem map_negate (x : Extended α) : x.negate.map f = (x.map f).negate := by
  cases x with
  | finite a => exact congrArg finite (hf.neg a)
  | _ => rfl

theorem map_abs (x : Extended α) : x.abs.map f = (x.map f).abs := by
  rw [abs, abs, isNegative, isNegative, hf.side_map, apply_ite (map f), hf.map_negate]

theorem map_signum (x : Extended α) : x.signum.map f = (x.map f).signum := by
  cases x with
  | nan => rfl
  | finite a => exact congrArg finite ((hf.ofInt _).trans (congrArg _ (hf.sign a).symm))
  | infinity => exact congrArg finite (hf.ofInt 1)
  | negInfinity => exact congrArg finite (hf.ofInt (-1))

theorem map_times {product : α → α → Extended α} {product' : β → β → Extended β}
    {x y : Extended α}
    (h : ∀ a b, x = finite a → y = finite b → (product a b).map f = product' (f a) (f b)) :
    (times product x y).map f = times product' (x.map f) (y.map f) := by
  cases x <;> cases y
  case finite.finite a b => exact h a b rfl rfl
  -- an infinity is multiplied by the side of the other number alone
  all_goals
    refine (map_ofSide f _).trans (congrArg ofSide ?_)
    exact congr (congrArg _ (hf.side_map _).symm) (hf.side_map _).symm

theorem map_quotient {ratio : α → α → Extended α} {ratio' : β → β → Extended β}
    (h : ∀ a b, (ratio a b).map f = ratio' (f a) (f b)) (x y : Extended α) :
    (quotient ratio x y).map f = quotient ratio' (x.map f) (y.map f) := by
  cases x <;> cases y
  case finite.finite a b =>
    simp only [quotient, map_finite, hf.sign, apply_ite (map f), map_ofSide, h]
  case finite.infinity => exact hf.map_zero
  case finite.negInfinity => exact hf.map_zero
  case infinity.finite b =>
    simp only [quotient, map_finite, map_infinity, map_negInfinity, hf.sign, apply_ite (map f)]
  case negInfinity.finite b =>
    simp only [quotient, map_finite, map_infinity, map_negInfinity, hf.sign, apply_ite (map f)]
  all_goals rfl

theorem map_modulo {remainder : α → α → Extended α} {remainder' : β → β → Extended β}
    (h : ∀ a b, (remainder a b).map f = remainder' (f a) (f b)) (x y : Extended α) :
    (modulo remainder x y).map f = modulo remainder' (x.map f) (y.map f) := by
  cases x <;> cases y
  case finite.finite a b => simp only [modulo, map_finite, map_nan, hf.sign, apply_ite (map f), h]
  all_goals rfl

theorem map_power {raise : α → Nat → Extended α} {raise' : β → Nat → Extended β}
    (h : ∀ a n, (raise a n).map f = raise' (f a) n) (x : Extended α) (n : Nat) :
    (power raise x n).map f = power raise' (x.map f) n := by
  unfold power
  rw [apply_ite (map f), hf.map_one]
  cases x with
  | finite a => rw [map_finite, h]
  | nan => rfl
  | infinity => rfl
  | negInfinity => simp only [map_infinity, map_negInfinity, apply_ite (map f)]

end Embedding

end Extended

namespace Scaled

theorem embedding_ofInt : Extended.Embedding ofInt := ⟨fun _ => rfl, fun _ => rfl, fun _ => rfl⟩

@[simp] theorem unscaledAt_ofInt (n : Int) : (ofInt n).unscaledAt 0 = n := by
  simp [unscaledAt, ofInt]

theorem reduce_zero (n : Int) (h : 0 ≤ maxScale) : reduce n 0 h = ofInt n := by
  unfold reduce
  split
  case isTrue hn => rw [hn]
  case isFalse => rfl

theorem compare_ofInt (a b : Int) : compare (ofInt a) (ofInt b) = Ord.compare a b := by
  change Ord.compare ((ofInt a).unscaledAt 0) ((ofInt b).unscaledAt 0) = _
  rw [unscaledAt_ofInt, unscaledAt_ofInt]

end Scaled

namespace Rounding

theorem down_divide (n d : Int) : down.divide n d = n.tdiv d := by
  have hquotient : down.divide n d = (if d < 0 then -n else n).tdiv d.natAbs := by
    simp [divide, leavesZero]
  rw [hquotient]
  split
  case isTrue hd => rw [Int.ofNat_natAbs_of_nonpos (Int.le_of_lt hd), Int.neg_tdiv_neg]
  case isFalse hd => rw [Int.natAbs_of_nonneg (Int.not_lt.1 hd)]

end Rounding

namespace Decimal

open Scaled

theorem ofScaled_zero (n : Int) : ofScaled n 0 = .finite (.ofInt n) := by
  rw [ofScaled, dif_pos (Nat.zero_le _), reduce_zero]

theorem ofInteger_eq_map (n : Integer) : ofInteger n = n.map .ofInt := by
  cases n <;> rfl

theorem ofInteger_plus (m n : Integer) :
    ofInteger (m.plus n) = (ofInteger m).plus (ofInteger n) := by
  simp only [ofInteger_eq_map]
  refine Extended.map_plus (fun a b => ?_) m n
  change _ = ofScaled ((Scaled.ofInt a).unscaledAt 0 + (Scaled.ofInt b).unscaledAt 0) 0
  rw [unscaledAt_ofInt, unscaledAt_ofInt, ofScaled_zero]
  rfl

theorem ofInteger_minus (m n : Integer) :
    ofInteger (m.minus n) = (ofInteger m).minus (ofInteger n) := by
  simp only [ofInteger_eq_map]
  refine Extended.map_minus (fun a b => ?_) m n
  change _ = ofScaled ((Scaled.ofInt a).unscaledAt 0 - (Scaled.ofInt b).unscaledAt 0) 0
  rw [unscaledAt_ofInt, unscaledAt_ofInt, ofScaled_zero]
  rfl

theorem ofInteger_times (m n : Integer) :
    ofInteger (m.times n) = (ofInteger m).times (ofInteger n) := by
  simp only [ofInteger_eq_map]
  refine embedding_ofInt.map_times fun a b _ _ => ?_
  change _ = ofScaled (a * b) 0
  rw [ofScaled_zero]
  rfl

theorem ofInteger_quotient (m n : Integer) :
    ofInteger (m.quotient n) = (ofInteger m).divide 0 .down (ofInteger n) := by
  simp only [ofInteger_eq_map]
  refine embedding_ofInt.map_quotient (fun a b => ?_) m n
  change _ = ofScaled (Rounding.down.divide (a * (tenTo 0 : Nat)) (b * (tenTo 0 : Nat))) 0
  rw [Rounding.down_divide, ofScaled_zero]
  simp [Extended.map]

theorem ofInteger_modulo (m n : Integer) :
    ofInteger (m.modulo n) = (ofInteger m).modulo (ofInteger n) := by
  simp only [ofInteger_eq_map]
  refine embedding_ofInt.map_modulo (fun a b => ?_) m n
  change _ = ofScaled (((Scaled.ofInt a).unscaledAt 0).tmod ((Scaled.ofInt b).unscaledAt 0)) 0
  rw [unscaledAt_ofInt, unscaledAt_ofInt, ofScaled_zero]
  rfl

theorem ofInteger_power (m : Integer) (k : Nat) :
    ofInteger (m.power k) = (ofInteger m).power k := by
  simp only [ofInteger_eq_map]
  refine embedding_ofInt.map_power (fun a k => ?_) m k
  change _ = if 0 * k ≤ maxScale then ofScaled (a.pow k) (0 * k) else .nan
  rw [Nat.zero_mul, if_pos (Nat.zero_le _), ofScaled_zero]
  rfl

theorem ofInteger_negate (m : Integer) : ofInteger m.negate = (ofInteger m).negate := by
  rw [ofInteger_eq_map, ofInteger_eq_map, embedding_ofInt.map_negate]

theorem ofInteger_abs (m : Integer) : ofInteger m.abs = (ofInteger m).abs := by
  rw [ofInteger_eq_map, ofInteger_eq_map, embedding_ofInt.map_abs]

theorem ofInteger_signum (m : Integer) : ofInteger m.signum = (ofInteger m).signum := by
  rw [ofInteger_eq_map, ofInteger_eq_map, embedding_ofInt.map_signum]

theorem compare_ofInteger (m n : Integer) :
    (ofInteger m).compare (ofInteger n) = m.compare n := by
  rw [ofInteger_eq_map, ofInteger_eq_map]
  exact Extended.map_compare compare_ofInt m n

end Decimal

end ScriptValue
