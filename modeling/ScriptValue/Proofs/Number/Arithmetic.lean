import ScriptValue.Proofs.Number.Denotation
import ScriptValue.Proofs.Number.Rounding
import Mathlib.Tactic.LinearCombination

namespace ScriptValue

namespace Scaled

theorem toRat_strip (u : Int) (s : Nat) :
    ((strip u s).1 / tenTo (strip u s).2 : ℚ) = u / tenTo s := by
  induction s generalizing u with
  | zero => rfl
  | succ s ih =>
    rw [strip]
    split
    case isTrue hmod =>
      -- a zero at the end of the digits goes together with a place after the point
      obtain ⟨v, rfl⟩ := Int.dvd_of_emod_eq_zero hmod
      rw [ih, Int.mul_ediv_cancel_left _ (by decide), tenTo_succ]
      have hne : (tenTo s : ℚ) ≠ 0 := tenTo_ne_zero s
      push_cast
      field_simp
    case isFalse => rfl

theorem toRat_reduce (u : Int) {s : Nat} (h : s ≤ maxScale) :
    (reduce u s h).toRat = u / tenTo s := by
  rw [reduce]
  split
  case isTrue hu => simp [hu]
  case isFalse => exact toRat_strip u s

theorem toRat_eq_zero_iff {x : Scaled} : x.toRat = 0 ↔ x.unscaled = 0 := by
  rw [toRat, div_eq_zero_iff, or_iff_left (tenTo_ne_zero _), Int.cast_eq_zero]

end Scaled

namespace Decimal

/-- Whether a decimal is defined and denotes a rational number. -/
def Denotes (d : Decimal) (q : ℚ) : Prop := (Number.decimal d).value? = some q

theorem denotes_finite (x : Scaled) : Denotes (.finite x) x.toRat := rfl

theorem Denotes.exists_eq {d : Decimal} {q : ℚ} (h : d.Denotes q) :
    ∃ x : Scaled, d = .finite x ∧ x.toRat = q := by
  cases d with
  | finite x => exact ⟨x, rfl, Option.some.inj h⟩
  | _ => cases h

theorem Denotes.eq {d e : Decimal} {q : ℚ} (hd : d.Denotes q) (he : e.Denotes q) : d = e := by
  obtain ⟨x, rfl, rfl⟩ := hd.exists_eq
  obtain ⟨y, rfl, hy⟩ := he.exists_eq
  rw [Scaled.toRat_injective hy]

theorem denotes_ofScaled {u : Int} {s : Nat} {q : ℚ} (hs : s ≤ maxScale)
    (hu : (u : ℚ) = q * tenTo s) : (ofScaled u s).Denotes q := by
  have hq : (Scaled.reduce u s hs).toRat = q := by
    rw [Scaled.toRat_reduce, hu, mul_div_cancel_right₀ _ (tenTo_ne_zero s)]
  rw [ofScaled, dif_pos hs, ← hq]
  exact denotes_finite _

theorem ofScaled_of_lt (u : Int) {s : Nat} (h : maxScale < s) : ofScaled u s = .nan :=
  dif_neg (Nat.not_le.2 h)

theorem scale_le (d : Decimal) : d.scale ≤ maxScale := by
  cases d with
  | finite x => exact x.scale_le
  | _ => exact Nat.zero_le _

section Finite

variable (x y : Scaled)

theorem max_scale_le : max x.scale y.scale ≤ maxScale := Nat.max_le.2 ⟨x.scale_le, y.scale_le⟩

theorem cast_aligned_left :
    (x.unscaledAt (max x.scale y.scale) : ℚ) = x.toRat * tenTo (max x.scale y.scale) :=
  Scaled.cast_unscaledAt (Nat.le_max_left ..)

theorem cast_aligned_right :
    (y.unscaledAt (max x.scale y.scale) : ℚ) = y.toRat * tenTo (max x.scale y.scale) :=
  Scaled.cast_unscaledAt (Nat.le_max_right ..)

theorem denotes_plus : (plus (.finite x) (.finite y)).Denotes (x.toRat + y.toRat) := by
  refine denotes_ofScaled (max_scale_le x y) ?_
  rw [Int.cast_add, cast_aligned_left, cast_aligned_right, add_mul]

theorem denotes_minus : (minus (.finite x) (.finite y)).Denotes (x.toRat - y.toRat) := by
  refine denotes_ofScaled (max_scale_le x y) ?_
  rw [Int.cast_sub, cast_aligned_left, cast_aligned_right, sub_mul]

theorem cast_unscaled : (x.unscaled : ℚ) = x.toRat * tenTo x.scale :=
  (div_mul_cancel₀ _ (tenTo_ne_zero _)).symm

theorem denotes_times (h : x.scale + y.scale ≤ maxScale) :
    (times (.finite x) (.finite y)).Denotes (x.toRat * y.toRat) := by
  refine denotes_ofScaled h ?_
  rw [Int.cast_mul, cast_unscaled x, cast_unscaled y, tenTo_add, Nat.cast_mul]
  ring

theorem denotes_power {n : Nat} (h : x.scale * n ≤ maxScale) :
    (power (.finite x) n).Denotes (x.toRat ^ n) := by
  cases n with
  | zero =>
    have hone : Denotes .one (Scaled.ofInt 1).toRat := denotes_finite _
    rwa [Scaled.toRat_ofInt, Int.cast_one, ← pow_zero x.toRat] at hone
  | succ n =>
    have hpower : power (.finite x) (n + 1) =
        ofScaled (x.unscaled ^ (n + 1)) (x.scale * (n + 1)) := if_pos h
    have htenTo : tenTo (x.scale * (n + 1)) = tenTo x.scale ^ (n + 1) := pow_mul 10 _ _
    rw [hpower]
    refine denotes_ofScaled h ?_
    rw [Int.cast_pow, cast_unscaled x, htenTo, Nat.cast_pow, mul_pow]

theorem power_of_lt {n : Nat} (h : maxScale < x.scale * n) : power (.finite x) n = .nan := by
  cases n with
  | zero => cases h
  | succ n => exact if_neg (Nat.not_le.2 h)

variable {y} (hy : y.toRat ≠ 0)

include hy

theorem sign_ne_zero : Magnitude.sign y ≠ 0 :=
  mt Int.sign_eq_zero_iff_zero.1 (mt Scaled.toRat_eq_zero_iff.2 hy)

theorem denotes_modulo :
    (modulo (.finite x) (.finite y)).Denotes
      (x.toRat - y.toRat * Rounding.down.round (x.toRat / y.toRat)) := by
  let s := max x.scale y.scale
  have hmodulo : modulo (.finite x) (.finite y) =
      ofScaled ((x.unscaledAt s).tmod (y.unscaledAt s)) s := if_neg (sign_ne_zero hy)
  have hne : y.unscaledAt s ≠ 0 := by
    rw [← Int.cast_ne_zero (α := ℚ), cast_aligned_right]
    exact mul_ne_zero hy (tenTo_ne_zero s)
  -- both are written with the same number of digits, so their quotient is the exact one
  have hquotient : (x.unscaledAt s).tdiv (y.unscaledAt s) =
      Rounding.down.round (x.toRat / y.toRat) := by
    rw [← Rounding.down_divide, Rounding.divide_eq_round _ _ hne, cast_aligned_left,
      cast_aligned_right, mul_div_mul_right _ _ (tenTo_ne_zero s)]
  rw [hmodulo]
  refine denotes_ofScaled (max_scale_le x y) ?_
  rw [Int.tmod_def, hquotient, Int.cast_sub, Int.cast_mul, cast_aligned_left, cast_aligned_right]
  ring

theorem divide_eq_ofScaled {s : Nat} (hs : s + y.scale - x.scale ≤ maxScale) (mode : Rounding) :
    divide s mode (.finite x) (.finite y) =
      ofScaled (mode.round (x.toRat / y.toRat * tenTo s)) s := by
  let up := tenTo (s + y.scale - x.scale)
  let down := tenTo (x.scale - (s + y.scale))
  have hdivide : divide s mode (.finite x) (.finite y) =
      ofScaled (mode.divide (x.unscaled * up) (y.unscaled * down)) s := by
    have hdown : x.scale - (s + y.scale) ≤ maxScale := (Nat.sub_le ..).trans x.scale_le
    refine (if_neg (sign_ne_zero hy)).trans ?_
    rw [Nat.min_eq_left hs, Nat.min_eq_left hdown]
  have hne : y.unscaled * (down : Int) ≠ 0 :=
    mul_ne_zero (mt Scaled.toRat_eq_zero_iff.2 hy) (Nat.cast_ne_zero.2 (tenTo_pos _).ne')
  have hshift : (up * tenTo x.scale : ℚ) = down * tenTo (s + y.scale) := by
    rw [← Nat.cast_mul, ← Nat.cast_mul, ← tenTo_add, ← tenTo_add]
    congr 2
    omega
  have hquotient : ((x.unscaled * up : Int) / (y.unscaled * down : Int) : ℚ) =
      x.toRat / y.toRat * tenTo s := by
    rw [tenTo_add, Nat.cast_mul] at hshift
    have hdown : (down : ℚ) ≠ 0 := tenTo_ne_zero _
    have hscale := tenTo_ne_zero y.scale
    rw [Int.cast_mul, Int.cast_mul, cast_unscaled x, cast_unscaled y]
    push_cast
    field_simp
    linear_combination x.toRat * hshift
  rw [hdivide, Rounding.divide_eq_round _ _ hne, hquotient]

end Finite

/--
A quotient has the digits that the mode makes of the exact one: of itself where it needs no more
than these. With the digits that division keeps, it is at most half of the last one away.
-/
theorem divide_rounded {a b : Decimal} {p q : ℚ} (ha : a.Denotes p) (hb : b.Denotes q)
    (hq : q ≠ 0) :
    (∀ (s : Nat) (mode : Rounding), s ≤ maxScale → s + b.scale - a.scale ≤ maxScale →
      (a.divide s mode b).Denotes (mode.round (p / q * tenTo s) / tenTo s) ∧
      ∀ n : ℤ, p / q * tenTo s = n → (a.divide s mode b).Denotes (p / q)) ∧
    (divisionScale + b.scale - a.scale ≤ maxScale →
      ∃ r, (a.quotient b).Denotes r ∧ |p / q - r| ≤ 1 / 2 / tenTo divisionScale) := by
  obtain ⟨x, rfl, rfl⟩ := ha.exists_eq
  obtain ⟨y, rfl, rfl⟩ := hb.exists_eq
  have hdivide {s : Nat} (mode : Rounding) (hs : s ≤ maxScale)
      (hshift : s + y.scale - x.scale ≤ maxScale) :
      (divide s mode (.finite x) (.finite y)).Denotes
        (mode.round (x.toRat / y.toRat * tenTo s) / tenTo s) := by
    rw [divide_eq_ofScaled x hq hshift]
    exact denotes_ofScaled hs (div_mul_cancel₀ _ (tenTo_ne_zero s)).symm
  refine ⟨fun s mode hs hshift => ⟨hdivide mode hs hshift, fun n hn => ?_⟩, fun hshift => ?_⟩
  · have hexact := hdivide mode hs hshift
    rwa [hn, Rounding.round_intCast, ← hn, mul_div_cancel_right₀ _ (tenTo_ne_zero s)] at hexact
  · refine ⟨_, hdivide .halfEven (by decide) hshift, ?_⟩
    have hpos : (0 : ℚ) < tenTo divisionScale := Nat.cast_pos.2 (tenTo_pos _)
    have hle := Rounding.abs_sub_round_halfEven_le (x.toRat / y.toRat * tenTo divisionScale)
    rw [le_div_iff₀ hpos, ← abs_of_pos hpos, ← abs_mul, sub_mul, abs_of_pos hpos,
      div_mul_cancel₀ _ hpos.ne']
    exact hle

theorem divide_rounded_eighth :
    let a : Decimal := .finite (.ofInt 1)
    let b : Decimal := .finite (.ofInt 8)
    a.Denotes 1 ∧ b.Denotes 8 ∧
      (a.divide 2 .halfEven b).Denotes (Rounding.halfEven.round (1 / 8 * tenTo 2) / tenTo 2) ∧
      Rounding.halfEven.round (1 / 8 * tenTo 2) = 12 ∧ (a.divide 3 .up b).Denotes (1 / 8) ∧
      ∃ r, (a.quotient b).Denotes r ∧ |1 / 8 - r| ≤ 1 / 2 / tenTo divisionScale := by
  intro a b
  have ha : a.Denotes 1 := congrArg some ((Scaled.toRat_ofInt 1).trans Int.cast_one)
  have hb : b.Denotes 8 := congrArg some ((Scaled.toRat_ofInt 8).trans (by norm_num))
  obtain ⟨hdivide, hquotient⟩ := divide_rounded ha hb (by norm_num)
  have hround : Rounding.halfEven.round (1 / 8 * tenTo 2) = 12 := by decide +kernel
  exact ⟨ha, hb, (hdivide 2 .halfEven (by decide) (by decide)).1, hround,
    (hdivide 3 .up (by decide) (by decide)).2 125 (by norm_num [tenTo]), hquotient (by decide)⟩

end Decimal

namespace Number

open Decimal

/--
Decimals are reckoned with exactly, as long as a product or a power does not need more digits than
are kept, and then it is not a number; and a whole number is its quotient by another, times that,
and the remainder.
-/
theorem arithmetic_exact :
    (∀ a : Decimal, a.state = .defined → ∃ p, a.Denotes p) ∧
    (∀ {a b : Decimal} {p q : ℚ}, a.Denotes p → b.Denotes q →
      (a.plus b).Denotes (p + q) ∧ (a.minus b).Denotes (p - q) ∧
      (q ≠ 0 → (a.modulo b).Denotes (p - q * Rounding.down.round (p / q))) ∧
      (a.scale + b.scale ≤ maxScale → (a.times b).Denotes (p * q)) ∧
      (maxScale < a.scale + b.scale → a.times b = .nan)) ∧
    (∀ {a : Decimal} {p : ℚ} (n : Nat), a.Denotes p →
      (a.scale * n ≤ maxScale → (a.power n).Denotes (p ^ n)) ∧
      (maxScale < a.scale * n → a.power n = .nan)) ∧
    ∀ m n : Int, n ≠ 0 → ∃ q r : Int,
      Integer.quotient (.finite m) (.finite n) = .finite q ∧
      Integer.modulo (.finite m) (.finite n) = .finite r ∧
      m = q * n + r ∧ |r| < |n| ∧ (r = 0 ∨ r.sign = m.sign) := by
  refine ⟨fun a ha => ?_, fun ha hb => ?_, fun n ha => ?_, fun m n hn => ?_⟩
  · cases a with
    | finite x => exact ⟨_, denotes_finite x⟩
    | _ => cases ha
  · obtain ⟨x, rfl, rfl⟩ := ha.exists_eq
    obtain ⟨y, rfl, rfl⟩ := hb.exists_eq
    exact ⟨denotes_plus x y, denotes_minus x y, denotes_modulo x, denotes_times x y,
      ofScaled_of_lt _⟩
  · obtain ⟨x, rfl, rfl⟩ := ha.exists_eq
    exact ⟨denotes_power x, power_of_lt x⟩
  · have hsign : Magnitude.sign n ≠ 0 := mt Int.sign_eq_zero_iff_zero.1 hn
    refine ⟨m.tdiv n, m.tmod n, if_neg hsign, if_neg hsign, (Int.tdiv_mul_add_tmod m n).symm, ?_,
      ?_⟩
    · rw [Int.abs_eq_natAbs, Int.abs_eq_natAbs, Int.natAbs_tmod]
      exact_mod_cast Nat.mod_lt _ (Int.natAbs_pos.2 hn)
    · rw [Int.sign_tmod]
      by_cases hdvd : n ∣ m
      · exact .inl (Int.tmod_eq_zero_of_dvd hdvd)
      · exact .inr (if_neg hdvd)

theorem arithmetic_exact_tenth :
    let a : Decimal := .finite ⟨1, 1, by decide, .inr (by decide)⟩
    let b : Decimal := .finite ⟨-25, 2, by decide, .inr (by decide)⟩
    let c : Decimal := .finite ⟨1, maxScale, le_rfl, .inr (by decide)⟩
    (∃ p, c.Denotes p) ∧ a.Denotes (1 / 10) ∧ b.Denotes (-25 / 100) ∧
      (a.plus b).Denotes (1 / 10 + -25 / 100) ∧ (a.minus b).Denotes (1 / 10 - -25 / 100) ∧
      (a.modulo b).Denotes
        (1 / 10 - -25 / 100 * Rounding.down.round ((1 / 10) / (-25 / 100))) ∧
      (a.times b).Denotes (1 / 10 * (-25 / 100)) ∧ a.times c = .nan ∧
      (a.power 3).Denotes ((1 / 10) ^ 3) ∧ c.power 2 = .nan ∧
      ∃ q r : Int, Integer.quotient (.finite (-7)) (.finite 2) = .finite q ∧
        Integer.modulo (.finite (-7)) (.finite 2) = .finite r ∧
        -7 = q * 2 + r ∧ |r| < |2| ∧ (r = 0 ∨ r.sign = (-7 : Int).sign) := by
  intro a b c
  have ha : a.Denotes (1 / 10) := by simp [a, Denotes, value?, Scaled.toRat, tenTo]
  have hb : b.Denotes (-25 / 100) := by simp [b, Denotes, value?, Scaled.toRat, tenTo]
  obtain ⟨hdenotes, hbinary, hpower, hwhole⟩ := arithmetic_exact
  obtain ⟨p, hc⟩ := hdenotes c rfl
  obtain ⟨hplus, hminus, hmodulo, htimes, -⟩ := hbinary ha hb
  obtain ⟨-, -, -, -, hmany⟩ := hbinary ha hc
  exact ⟨⟨p, hc⟩, ha, hb, hplus, hminus, hmodulo (by norm_num), htimes (by decide),
    hmany (by decide), (hpower 3 ha).1 (by decide), (hpower 2 hc).2 (by decide),
    hwhole (-7) 2 (by decide)⟩

end Number

end ScriptValue
