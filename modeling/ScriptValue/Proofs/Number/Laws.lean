import ScriptValue.Proofs.Number.Arithmetic
import ScriptValue.Proofs.Number.Exact

namespace ScriptValue

namespace Extended

variable {α β : Type}

theorem map_injective {f : α → β} (hf : Function.Injective f) : Function.Injective (map f) := by
  intro x y h
  cases x <;> cases y
  case finite.finite a b => exact congrArg finite (hf (finite.inj h))
  all_goals cases h <;> rfl

variable [Magnitude α]

/-- Addition as in a commutative group, though not every number can be taken away from itself. -/
structure LawfulSum (plus minus : Extended α → Extended α → Extended α) : Prop where
  comm : ∀ x y, plus x y = plus y x
  assoc : ∀ x y z, plus (plus x y) z = plus x (plus y z)
  zero : ∀ x, plus x zero = x ∧ plus zero x = x
  minus : ∀ x y, minus x y = plus x y.negate
  negate : ∀ x : Extended α, x.negate.negate = x
  abs : ∀ x : Extended α, x.negate.abs = x.abs

structure LawfulProduct (Fits : Extended α → Extended α → Prop)
    (times : Extended α → Extended α → Extended α) : Prop where
  comm : ∀ x y, times x y = times y x
  assoc : ∀ x y z, Fits x y → Fits (times x y) z → Fits y z → Fits x (times y z) →
    times (times x y) z = times x (times y z)
  one : ∀ x, times x one = x ∧ times one x = x

namespace Exact

variable {R : Type} [CommRing R] [LinearOrder R] [IsStrictOrderedRing R] [Magnitude R]
  [OrderedMagnitude R]

theorem lawfulSum : LawfulSum (α := R) plus minus where
  comm := plus_comm
  assoc := plus_assoc
  zero x := ⟨plus_zero x, by rw [plus_comm, plus_zero]⟩
  minus := minus_eq_plus_negate
  negate := negate_negate
  abs := abs_negate

theorem lawfulProduct : LawfulProduct (α := R) (fun _ _ => True) times where
  comm := times_comm
  assoc x y z _ _ _ _ := times_assoc x y z
  one x := ⟨times_one x, by rw [times_comm, times_one]⟩

end Exact

end Extended

theorem Scaled.embedding_toRat : Extended.Embedding Scaled.toRat where
  ofInt := toRat_ofInt
  sign x := by
    have hpos : (0 : ℚ) < tenTo x.scale := Nat.cast_pos.2 (tenTo_pos _)
    change (SignType.sign (x.unscaled / tenTo x.scale : ℚ) : ℤ) = x.unscaled.sign
    rw [div_eq_mul_inv, sign_mul, sign_pos (inv_pos.2 hpos), mul_one, sign_intCast,
      Int.sign_eq_sign]
  neg := toRat_neg

namespace Decimal

open Extended (LawfulSum LawfulProduct)

def toExact : Decimal → Extended ℚ := Extended.map Scaled.toRat

theorem toExact_injective : Function.Injective toExact :=
  Extended.map_injective Scaled.toRat_injective

theorem Denotes.toExact {d : Decimal} {q : ℚ} (h : d.Denotes q) : d.toExact = .finite q := by
  obtain ⟨x, rfl, rfl⟩ := h.exists_eq
  rfl

def Fits (d e : Decimal) : Prop := d.scale + e.scale ≤ maxScale

instance (d e : Decimal) : Decidable (d.Fits e) := inferInstanceAs (Decidable (_ ≤ _))

section ToExact

variable (d e : Decimal)

theorem toExact_zero : toExact .zero = .zero := Scaled.embedding_toRat.map_zero

theorem toExact_one : toExact .one = .one := Scaled.embedding_toRat.map_one

theorem toExact_negate : toExact d.negate = d.toExact.negate := Scaled.embedding_toRat.map_negate d

theorem toExact_abs : toExact d.abs = d.toExact.abs := Scaled.embedding_toRat.map_abs d

theorem toExact_plus : (d.plus e).toExact = Extended.Exact.plus d.toExact e.toExact := by
  refine Extended.map_plus (fun x y => ?_) d e
  exact (denotes_plus x y).toExact

theorem toExact_minus : (d.minus e).toExact = Extended.Exact.minus d.toExact e.toExact := by
  refine Extended.map_minus (fun x y => ?_) d e
  exact (denotes_minus x y).toExact

variable {d e} in
theorem Fits.toExact_times (h : d.Fits e) :
    (d.times e).toExact = Extended.Exact.times d.toExact e.toExact := by
  refine Scaled.embedding_toRat.map_times fun x y hx hy => ?_
  subst hx hy
  exact (denotes_times x y h).toExact

end ToExact

theorem plus_comm (d e : Decimal) : d.plus e = e.plus d :=
  toExact_injective (by rw [toExact_plus, toExact_plus, Extended.Exact.plus_comm])

theorem plus_zero (d : Decimal) : d.plus .zero = d :=
  toExact_injective (by rw [toExact_plus, toExact_zero, Extended.Exact.plus_zero])

theorem lawfulSum : LawfulSum plus minus where
  comm := plus_comm
  assoc x y z := toExact_injective (by simp only [toExact_plus, Extended.Exact.plus_assoc])
  zero x := ⟨plus_zero x, by rw [plus_comm, plus_zero]⟩
  minus x y := toExact_injective (by
    rw [toExact_minus, toExact_plus, toExact_negate, Extended.Exact.minus_eq_plus_negate])
  negate x := toExact_injective (by
    rw [toExact_negate, toExact_negate, Extended.Exact.negate_negate])
  abs x := toExact_injective (by
    rw [toExact_abs, toExact_abs, toExact_negate, Extended.Exact.abs_negate])

theorem times_comm (d e : Decimal) : d.times e = e.times d := by
  refine Extended.times_comm (fun x y => ?_) d e
  rw [mul_comm, Nat.add_comm]

theorem times_one (d : Decimal) : d.times .one = d := by
  have hfits : d.Fits .one := d.scale_le
  exact toExact_injective (by rw [hfits.toExact_times, toExact_one, Extended.Exact.times_one])

theorem lawfulProduct : LawfulProduct Fits times where
  comm := times_comm
  assoc x y z hxy hleft hyz hright := toExact_injective (by
    rw [hleft.toExact_times, hxy.toExact_times, hright.toExact_times, hyz.toExact_times,
      Extended.Exact.times_assoc])
  one x := ⟨times_one x, by rw [times_comm, times_one]⟩

end Decimal

namespace Number

/--
Numbers of both kinds obey the laws of arithmetic in all of their states. Sums and products go in
any order and grouping, where products of decimals fit; zero and one change nothing, a difference is
the sum with the negative, which lies as far from zero, and powers of whole numbers add up.
-/
theorem arithmetic_lawful :
    Extended.LawfulSum Integer.plus Integer.minus ∧
    Extended.LawfulProduct (fun _ _ => True) Integer.times ∧
    (∀ (a : Integer) (m n : Nat), a.power (m + n) = (a.power m).times (a.power n)) ∧
    Extended.LawfulSum Decimal.plus Decimal.minus ∧
    Extended.LawfulProduct Decimal.Fits Decimal.times :=
  ⟨Extended.Exact.lawfulSum, Extended.Exact.lawfulProduct, Extended.Exact.power_add,
    Decimal.lawfulSum, Decimal.lawfulProduct⟩

theorem arithmetic_lawful_fits :
    let a : Decimal := .finite ⟨5, 1, by decide, .inr (by decide)⟩
    let b : Decimal := .ofInt 4
    let c : Decimal := .finite ⟨-1, maxScale - 1, by decide, .inr (by decide)⟩
    a.Fits b ∧ (a.times b).Fits c ∧ b.Fits c ∧ a.Fits (b.times c) ∧
      (a.times b).times c = a.times (b.times c) ∧
      (a.times .infinity).times c = a.times (Decimal.times .infinity c) ∧
      (a.times .infinity).times c = .negInfinity := by
  intro a b c
  obtain ⟨-, -, -, -, hproduct⟩ := arithmetic_lawful
  have hab : a.Fits b := by decide
  have habc : (a.times b).Fits c := by decide
  have hbc : b.Fits c := by decide
  have habc' : a.Fits (b.times c) := by decide
  exact ⟨hab, habc, hbc, habc', hproduct.assoc a b c hab habc hbc habc',
    hproduct.assoc a .infinity c (by decide) (by decide) (by decide) (by decide), by decide⟩

example :
    let c : Decimal := .finite ⟨1, maxScale, le_rfl, .inr (by decide)⟩
    (Decimal.times .infinity c).times c = .infinity ∧
      Decimal.times .infinity (c.times c) = .nan := by
  decide

end Number

end ScriptValue
