import ScriptValue.Proofs.Number.Arithmetic
import ScriptValue.Proofs.Number.Order

namespace ScriptValue

namespace Decimal

variable {d e : Decimal} {p q : ℚ}

theorem Denotes.plus (hd : d.Denotes p) (he : e.Denotes q) : (d.plus e).Denotes (p + q) := by
  obtain ⟨x, rfl, rfl⟩ := hd.exists_eq
  obtain ⟨y, rfl, rfl⟩ := he.exists_eq
  exact denotes_plus x y

theorem Denotes.minus (hd : d.Denotes p) (he : e.Denotes q) : (d.minus e).Denotes (p - q) := by
  obtain ⟨x, rfl, rfl⟩ := hd.exists_eq
  obtain ⟨y, rfl, rfl⟩ := he.exists_eq
  exact denotes_minus x y

theorem Denotes.negate (hd : d.Denotes q) : Denotes d.negate (-q) := by
  obtain ⟨x, rfl, rfl⟩ := hd.exists_eq
  exact x.toRat_neg ▸ denotes_finite x.neg

theorem Denotes.isLE_compare_iff (hd : d.Denotes p) (he : e.Denotes q) :
    (d.compare e).isLE = true ↔ p ≤ q := by
  have hcompare : d.compare e = Ord.compare p q := Number.compare_of_value? hd he
  rw [hcompare, Ordering.isLE_iff_ne_gt]
  exact compare_le_iff_le

variable (s : Nat) (mode : Rounding)

theorem roundTo_of_le {s : Nat} (h : d.scale ≤ s) : d.roundTo s mode = d := by
  cases d with
  | finite x => exact if_pos h
  | _ => rfl

theorem scale_roundTo_le (d : Decimal) : (d.roundTo s mode).scale ≤ s := by
  have hofScaled (u : Int) : (ofScaled u s).scale ≤ s := by
    rw [ofScaled]
    split
    · rw [Scaled.reduce]
      split
      · exact Nat.zero_le s
      · exact Scaled.strip_scale_le u s
    · exact Nat.zero_le s
  cases d with
  | finite x =>
    rw [roundTo]
    split
    case isTrue h => exact h
    case isFalse => exact hofScaled _
  | _ => exact Nat.zero_le s

theorem Denotes.roundTo (hd : d.Denotes q) :
    (d.roundTo s mode).Denotes (mode.round (q * tenTo s) / tenTo s) := by
  obtain ⟨x, rfl, rfl⟩ := hd.exists_eq
  by_cases h : x.scale ≤ s
  · rw [roundTo_of_le mode h, ← Scaled.cast_unscaledAt h, Rounding.round_intCast,
      Scaled.cast_unscaledAt h, mul_div_cancel_right₀ _ (tenTo_ne_zero s)]
    exact denotes_finite x
  · have hscale : (tenTo x.scale : ℚ) = tenTo s * tenTo (x.scale - s) := by
      rw [← Nat.cast_mul, ← tenTo_add, Nat.add_sub_cancel' (Nat.le_of_not_le h)]
    have hquotient : (x.unscaled / (tenTo (x.scale - s) : Int) : ℚ) = x.toRat * tenTo s := by
      have hne := tenTo_ne_zero s
      have hne' := tenTo_ne_zero (x.scale - s)
      rw [Scaled.toRat, hscale, Int.cast_natCast]
      field_simp
    have hround : Decimal.roundTo s mode (.finite x) =
        ofScaled (mode.round (x.toRat * tenTo s)) s := by
      rw [← hquotient, ← Rounding.divide_eq_round _ _ (Nat.cast_ne_zero.2 (tenTo_pos _).ne')]
      exact if_neg h
    rw [hround]
    exact denotes_ofScaled ((Nat.le_of_not_le h).trans x.scale_le)
      (div_mul_cancel₀ _ (tenTo_ne_zero s)).symm

theorem isLE_compare_roundTo (h : (d.compare e).isLE = true) :
    ((d.roundTo s mode).compare (e.roundTo s mode)).isLE = true := by
  have hfinite (x : Scaled) : ∃ z, roundTo s mode (.finite x) = .finite z :=
    ((denotes_finite x).roundTo s mode).exists_eq.imp fun _ => And.left
  cases d with
  | finite x =>
    cases e with
    | finite y =>
      rw [(denotes_finite x).isLE_compare_iff (denotes_finite y)] at h
      rw [((denotes_finite x).roundTo s mode).isLE_compare_iff
        ((denotes_finite y).roundTo s mode)]
      have hpos : (0 : ℚ) < tenTo s := Nat.cast_pos.2 (tenTo_pos s)
      rw [div_le_div_iff_of_pos_right hpos, Int.cast_le]
      exact mode.round_mono (mul_le_mul_of_nonneg_right h hpos.le)
    | _ =>
      obtain ⟨z, hz⟩ := hfinite x
      rw [hz]
      exact h
  | _ =>
    cases e with
    | finite y =>
      obtain ⟨z, hz⟩ := hfinite y
      rw [hz]
      exact h
    | _ => exact h

theorem abs_sub_div_tenTo (q : ℚ) (n : ℤ) :
    |q - n / tenTo s| = |q * tenTo s - n| / tenTo s := by
  have hpos : (0 : ℚ) < tenTo s := Nat.cast_pos.2 (tenTo_pos s)
  rw [← abs_of_pos hpos, ← abs_div, abs_of_pos hpos, sub_div, mul_div_cancel_right₀ _ hpos.ne']

theorem isLE_compare_floor (d : Decimal) : ((d.roundTo s .floor).compare d).isLE = true := by
  cases d with
  | finite x =>
    have hpos : (0 : ℚ) < tenTo s := Nat.cast_pos.2 (tenTo_pos s)
    rw [((denotes_finite x).roundTo s .floor).isLE_compare_iff (denotes_finite x),
      div_le_iff₀ hpos]
    exact Int.floor_le _
  | _ => rfl

theorem isLE_compare_ceiling (d : Decimal) : (d.compare (d.roundTo s .ceiling)).isLE = true := by
  cases d with
  | finite x =>
    have hpos : (0 : ℚ) < tenTo s := Nat.cast_pos.2 (tenTo_pos s)
    rw [(denotes_finite x).isLE_compare_iff ((denotes_finite x).roundTo s .ceiling),
      le_div_iff₀ hpos]
    exact Int.le_ceil _
  | _ => rfl

theorem roundTo_negate (d : Decimal) :
    roundTo s mode d.negate = Extended.negate (d.roundTo s mode.mirrored) := by
  cases d with
  | finite x =>
    have hleft := (denotes_finite x).negate.roundTo s mode
    have hright := ((denotes_finite x).roundTo s mode.mirrored).negate
    rw [neg_mul, Rounding.round_neg, Int.cast_neg, neg_div] at hleft
    exact hleft.eq hright
  | _ => rfl

theorem roundTo_roundTo {s t : Nat} (h : s ≤ t) {mode : Rounding}
    (hmode : mode ∈ [.ceiling, .floor, .down, .up]) (d : Decimal) :
    (d.roundTo t mode).roundTo s mode = d.roundTo s mode := by
  cases d with
  | finite x =>
    have hscale : (tenTo t : ℚ) = tenTo s * tenTo (t - s) := by
      rw [← Nat.cast_mul, ← tenTo_add, Nat.add_sub_cancel' h]
    have htwice := ((denotes_finite x).roundTo t mode).roundTo s mode
    have hshift (n : ℤ) : (n / tenTo t * tenTo s : ℚ) = n / tenTo (t - s) := by
      have hne := tenTo_ne_zero s
      have hne' := tenTo_ne_zero (t - s)
      rw [hscale]
      field_simp
    rw [hshift, hscale, ← mul_assoc, Rounding.round_round_mul_div (tenTo_pos _).ne' _ hmode]
      at htwice
    exact htwice.eq ((denotes_finite x).roundTo s mode)
  | _ => rfl

theorem truncate_plus_frac (h : d.state = .defined) : d.truncate.plus d.frac = d := by
  cases d with
  | finite x =>
    have htruncate := (denotes_finite x).roundTo 0 .down
    have hsum := htruncate.plus ((denotes_finite x).minus htruncate)
    rw [add_sub_cancel] at hsum
    exact hsum.eq (denotes_finite x)
  | _ => cases h

/--
Rounding at a digit keeps the order of numbers, leaves numbers alone that have no more digits, and
is off by less than one of the last digit, or by no more than half of it to the nearest. The floor
and the ceiling bound a number and mirror each other; the modes that do not ask for the nearest may
round in two steps; and what is cut off together with what is kept makes up the number.
-/
theorem roundTo_lawful (s : Nat) (mode : Rounding) :
    (∀ x y : Decimal, (x.compare y).isLE = true →
      ((x.roundTo s mode).compare (y.roundTo s mode)).isLE = true) ∧
    (∀ x : Decimal, (x.scale ≤ s → x.roundTo s mode = x) ∧ (x.roundTo s mode).scale ≤ s ∧
      (x.roundTo s mode).roundTo s mode = x.roundTo s mode) ∧
    (∀ x : Decimal, x.state = .defined → ∃ q r, x.Denotes q ∧ (x.roundTo s mode).Denotes r ∧
      |q - r| < 1 / tenTo s ∧
      (mode = .halfUp ∨ mode = .halfEven → |q - r| ≤ 1 / 2 / tenTo s)) ∧
    (∀ x : Decimal, ((x.roundTo s .floor).compare x).isLE = true ∧
      (x.compare (x.roundTo s .ceiling)).isLE = true) ∧
    (∀ x : Decimal, roundTo s .ceiling x.negate = (x.roundTo s .floor).negate ∧
      roundTo s .floor x.negate = (x.roundTo s .ceiling).negate ∧
      (mode ≠ .ceiling → mode ≠ .floor →
        roundTo s mode x.negate = (x.roundTo s mode).negate)) ∧
    (∀ t, s ≤ t → mode ∈ [.ceiling, .floor, .down, .up] → ∀ x : Decimal,
      (x.roundTo t mode).roundTo s mode = x.roundTo s mode) ∧
    ∀ x : Decimal, x.state = .defined → x.truncate.plus x.frac = x := by
  refine ⟨fun x y => isLE_compare_roundTo s mode, fun x => ?_, fun x hx => ?_, fun x => ?_,
    fun x => ?_, fun t ht hmode => roundTo_roundTo ht hmode, fun x => truncate_plus_frac⟩
  · exact ⟨roundTo_of_le mode, scale_roundTo_le s mode x,
      roundTo_of_le mode (scale_roundTo_le s mode x)⟩
  · cases x with
    | finite x =>
      refine ⟨_, _, denotes_finite x, (denotes_finite x).roundTo s mode, ?_, fun hmode => ?_⟩
      · rw [abs_sub_div_tenTo]
        exact div_lt_div_of_pos_right (Rounding.abs_sub_round_lt_one mode _)
          (Nat.cast_pos.2 (tenTo_pos s))
      · rw [abs_sub_div_tenTo]
        exact div_le_div_of_nonneg_right (Rounding.abs_sub_round_le_half hmode _)
          (Nat.cast_nonneg _)
    | _ => cases hx
  · exact ⟨isLE_compare_floor s x, isLE_compare_ceiling s x⟩
  · refine ⟨roundTo_negate s .ceiling x, roundTo_negate s .floor x, fun hceiling hfloor => ?_⟩
    have hmirrored : mode.mirrored = mode := by
      cases mode with
      | ceiling => exact absurd rfl hceiling
      | floor => exact absurd rfl hfloor
      | _ => rfl
    rw [roundTo_negate, hmirrored]

theorem roundTo_lawful_tie :
    let x : Decimal := .finite ⟨-225, 2, by decide, .inr (by decide)⟩
    let y : Decimal := .finite ⟨2, 1, by decide, .inr (by decide)⟩
    (x.compare y).isLE = true ∧
      ((x.roundTo 1 .halfEven).compare (y.roundTo 1 .halfEven)).isLE = true ∧
      y.scale ≤ 1 ∧ y.roundTo 1 .halfEven = y ∧ x.state = .defined ∧
      (∃ q r, x.Denotes q ∧ (x.roundTo 1 .halfEven).Denotes r ∧ |q - r| < 1 / tenTo 1 ∧
        |q - r| ≤ 1 / 2 / tenTo 1) ∧
      roundTo 1 .halfEven x.negate = (x.roundTo 1 .halfEven).negate ∧
      (x.roundTo 1 .down).roundTo 0 .down = x.roundTo 0 .down ∧ x.truncate.plus x.frac = x := by
  intro x y
  have hxy : (x.compare y).isLE = true := by decide
  obtain ⟨hmono, hexact, herror, -, hnegate, -, hfrac⟩ := roundTo_lawful 1 .halfEven
  obtain ⟨-, -, -, -, -, htwice, -⟩ := roundTo_lawful 0 .down
  obtain ⟨q, r, hq, hr, hlt, hle⟩ := herror x rfl
  exact ⟨hxy, hmono x y hxy, le_rfl, (hexact y).1 le_rfl, rfl, ⟨q, r, hq, hr, hlt, hle (.inr rfl)⟩,
    (hnegate x).2.2 (by decide) (by decide), htwice 1 (by decide) (by decide) x, hfrac x rfl⟩

end Decimal

end ScriptValue
