import ScriptValue.Number.Rounding
import Mathlib.Algebra.Order.Field.Rat
import Mathlib.Algebra.Order.Round
import Mathlib.Data.Rat.Floor
import Mathlib.Tactic.FieldSimp
import Mathlib.Tactic.Linarith

namespace ScriptValue.Rounding

def nearest (x : ℚ) (tie : ℤ) : ℤ :=
  if Int.fract x < 1 / 2 then ⌊x⌋ else if 1 / 2 < Int.fract x then ⌈x⌉ else tie

def round (mode : Rounding) (x : ℚ) : ℤ :=
  match mode with
  | ceiling => ⌈x⌉
  | floor => ⌊x⌋
  | halfUp => nearest x (if 0 ≤ x then ⌈x⌉ else ⌊x⌋)
  | halfEven => nearest x (if Even ⌊x⌋ then ⌊x⌋ else ⌈x⌉)
  | down => if 0 ≤ x then ⌊x⌋ else ⌈x⌉
  | up => if 0 ≤ x then ⌈x⌉ else ⌊x⌋

@[simp] theorem round_intCast (mode : Rounding) (n : ℤ) : mode.round n = n := by
  cases mode <;> simp [round, nearest]

theorem abs_sub_nearest_le {x : ℚ} {tie : ℤ} (htie : tie = ⌊x⌋ ∨ tie = ⌈x⌉) :
    |x - nearest x tie| ≤ 1 / 2 := by
  have hfloor : |x - ⌊x⌋| = Int.fract x := by
    rw [Int.self_sub_floor, abs_of_nonneg (Int.fract_nonneg x)]
  by_cases hlt : Int.fract x < 1 / 2
  · rw [nearest, if_pos hlt, hfloor]
    exact hlt.le
  · have hceil : |x - ⌈x⌉| ≤ 1 / 2 := by
      have hne : Int.fract x ≠ 0 := fun h => hlt (h ▸ one_half_pos)
      rw [abs_sub_comm, Int.ceil_sub_self_eq hne,
        abs_of_nonneg (sub_nonneg.2 (Int.fract_lt_one x).le)]
      linarith
    rw [nearest, if_neg hlt]
    split
    case isTrue => exact hceil
    case isFalse hgt =>
      cases htie with
      | inl htie => rwa [htie, hfloor, ← not_lt]
      | inr htie => rwa [htie]

theorem abs_sub_round_le_half {mode : Rounding}
    (hmode : mode = .halfUp ∨ mode = .halfEven) (x : ℚ) :
    |x - mode.round x| ≤ 1 / 2 := by
  rcases hmode with rfl | rfl
  · exact abs_sub_nearest_le (ite_eq_or_eq _ _ _).symm
  · exact abs_sub_nearest_le (ite_eq_or_eq _ _ _)

theorem abs_sub_round_halfEven_le (x : ℚ) : |x - halfEven.round x| ≤ 1 / 2 :=
  abs_sub_round_le_half (.inr rfl) x

def mirrored : Rounding → Rounding
  | ceiling => floor
  | floor => ceiling
  | mode => mode

section Fraction

variable {x : ℚ} (hx : Int.fract x ≠ 0)

include hx

theorem nearest_neg (tie : ℤ) : nearest (-x) (-tie) = -nearest x tie := by
  have hlt : 1 - Int.fract x < 1 / 2 ↔ 1 / 2 < Int.fract x := by
    constructor <;> intro h <;> linarith
  have hgt : 1 / 2 < 1 - Int.fract x ↔ Int.fract x < 1 / 2 := by
    constructor <;> intro h <;> linarith
  rw [nearest, nearest, Int.floor_neg, Int.ceil_neg, Int.fract_neg hx]
  simp only [hlt, hgt]
  split_ifs
  · linarith
  · rfl
  · rfl
  · rfl

theorem ceil_eq_floor_add_one : ⌈x⌉ = ⌊x⌋ + 1 := by
  rw [Int.ceil_eq_floor_add_one_iff_notMem]
  rintro ⟨n, rfl⟩
  exact hx (Int.fract_intCast n)

theorem tie_neg :
    (if Even ⌊-x⌋ then ⌊-x⌋ else ⌈-x⌉) = -(if Even ⌊x⌋ then ⌊x⌋ else ⌈x⌉) := by
  simp only [Int.floor_neg, Int.ceil_neg, even_neg, ceil_eq_floor_add_one hx, Int.even_add_one,
    ite_not, neg_ite]

end Fraction

theorem round_neg (mode : Rounding) (x : ℚ) : mode.round (-x) = -mode.mirrored.round x := by
  by_cases hx : Int.fract x = 0
  · obtain ⟨n, rfl⟩ := Int.fract_eq_zero_iff.1 hx
    rw [← Int.cast_neg, round_intCast, round_intCast]
  · have hnonneg : 0 ≤ -x ↔ ¬ 0 ≤ x := by
      have hne : x ≠ 0 := fun h => hx (by rw [h, Int.fract_zero])
      rw [neg_nonneg, not_le, le_iff_lt_or_eq, or_iff_left hne]
    cases mode with
    | ceiling => exact Int.ceil_neg
    | floor => exact Int.floor_neg
    | down =>
      simp only [round, mirrored, hnonneg, ite_not, Int.floor_neg, Int.ceil_neg, neg_ite]
    | up => simp only [round, mirrored, hnonneg, ite_not, Int.floor_neg, Int.ceil_neg, neg_ite]
    | halfUp =>
      simp only [round, mirrored, hnonneg, ite_not, Int.floor_neg, Int.ceil_neg, ← nearest_neg hx,
        neg_ite]
    | halfEven => simp only [round, mirrored, tie_neg hx, nearest_neg hx]

theorem leavesZero_mirrored (mode : Rounding) (negative odd : Bool) (twice : Ordering) :
    mode.mirrored.leavesZero negative odd twice = mode.leavesZero (!negative) odd twice := by
  cases mode <;> simp [mirrored, leavesZero]

section Divide

variable {n d : ℤ}

theorem divide_neg_neg (mode : Rounding) (n : ℤ) (hd : d ≠ 0) :
    mode.divide (-n) (-d) = mode.divide n d := by
  have hsign : (if -d < 0 then - -n else -n) = if d < 0 then -n else n := by
    split <;> split <;> omega
  rw [divide, divide, Int.natAbs_neg, hsign]

variable (hd : 0 < d)

include hd

theorem divide_of_pos (mode : Rounding) (n : ℤ) :
    mode.divide n d =
      if n.tmod d = 0 then n.tdiv d
      else if mode.leavesZero (decide (n.tmod d < 0)) (n.tdiv d % 2 == 1)
        (compare (2 * (n.tmod d).natAbs) d.natAbs) then n.tdiv d + (n.tmod d).sign
      else n.tdiv d := by
  rw [divide, if_neg (not_lt.2 hd.le), Int.natAbs_of_nonneg hd.le]

theorem divide_neg (mode : Rounding) (n : ℤ) :
    mode.divide (-n) d = -mode.mirrored.divide n d := by
  have hodd : (-n.tdiv d % 2 == 1) = (n.tdiv d % 2 == 1) := by
    rw [Bool.eq_iff_iff, beq_iff_eq, beq_iff_eq]
    omega
  rw [divide_of_pos hd, divide_of_pos hd, Int.neg_tdiv, Int.neg_tmod, Int.natAbs_neg, hodd,
    leavesZero_mirrored, Int.sign_neg]
  by_cases hr : n.tmod d = 0
  · rw [if_pos (neg_eq_zero.2 hr), if_pos hr]
  · have hneg : decide (-n.tmod d < 0) = !decide (n.tmod d < 0) := by
      rw [Bool.eq_iff_iff]
      simp only [decide_eq_true_eq, Bool.not_eq_true', decide_eq_false_iff_not]
      omega
    rw [if_neg (neg_ne_zero.2 hr), if_neg hr, hneg]
    split <;> omega

theorem div_eq_add (n : ℤ) : (n / d : ℚ) = n.tdiv d + n.tmod d / d := by
  have hne : (d : ℚ) ≠ 0 := Int.cast_ne_zero.2 hd.ne'
  have hn : (n : ℚ) = d * n.tdiv d + n.tmod d := by
    exact_mod_cast (Int.mul_tdiv_add_tmod n d).symm
  rw [hn]
  field_simp

section Positive

variable (hr : 0 < n.tmod d)

include hr

theorem fract_div_mem : 0 ≤ (n.tmod d / d : ℚ) ∧ (n.tmod d / d : ℚ) < 1 := by
  have hd' : (0 : ℚ) < d := Int.cast_pos.2 hd
  rw [div_lt_one hd']
  exact ⟨div_nonneg (Int.cast_nonneg hr.le) hd'.le, Int.cast_lt.2 (Int.tmod_lt_of_pos n hd)⟩

theorem floor_div : ⌊(n / d : ℚ)⌋ = n.tdiv d := by
  rw [div_eq_add hd, Int.floor_intCast_add, Int.floor_eq_zero_iff.2 (fract_div_mem hd hr), add_zero]

theorem fract_div : Int.fract (n / d : ℚ) = n.tmod d / d := by
  rw [div_eq_add hd, Int.fract_intCast_add, Int.fract_eq_self.2 (fract_div_mem hd hr)]

theorem ceil_div : ⌈(n / d : ℚ)⌉ = n.tdiv d + 1 := by
  have hfract : Int.fract (n / d : ℚ) ≠ 0 := by
    rw [fract_div hd hr]
    exact (div_pos (Int.cast_pos.2 hr) (Int.cast_pos.2 hd)).ne'
  rw [ceil_eq_floor_add_one hfract, floor_div hd hr]

theorem div_nonneg_of_tmod_pos : (0 : ℚ) ≤ n / d := by
  have hn : 0 ≤ n := by
    refine le_of_not_gt fun hn => ?_
    have hneg := Int.tmod_nonneg d (neg_nonneg.2 hn.le)
    rw [Int.neg_tmod] at hneg
    omega
  exact div_nonneg (Int.cast_nonneg hn) (Int.cast_nonneg hd.le)

theorem nearest_div (tie : ℤ) :
    nearest (n / d) tie = match compare (2 * (n.tmod d).natAbs) d.natAbs with
      | .lt => n.tdiv d
      | .eq => tie
      | .gt => n.tdiv d + 1 := by
  have hd' : (0 : ℚ) < d := Int.cast_pos.2 hd
  have hlt : (n.tmod d / d : ℚ) < 1 / 2 ↔ 2 * (n.tmod d).natAbs < d.natAbs := by
    rw [div_lt_div_iff₀ hd' two_pos, one_mul, mul_comm, ← Int.cast_ofNat, ← Int.cast_mul,
      Int.cast_lt]
    omega
  have hgt : 1 / 2 < (n.tmod d / d : ℚ) ↔ d.natAbs < 2 * (n.tmod d).natAbs := by
    rw [div_lt_div_iff₀ two_pos hd', one_mul, mul_comm _ (2 : ℚ), ← Int.cast_ofNat, ← Int.cast_mul,
      Int.cast_lt]
    omega
  simp only [nearest, fract_div hd hr, floor_div hd hr, ceil_div hd hr, hlt, hgt]
  cases hcompare : compare (2 * (n.tmod d).natAbs) d.natAbs with
  | lt => rw [if_pos (Nat.compare_eq_lt.1 hcompare)]
  | eq =>
    have heq := Nat.compare_eq_eq.1 hcompare
    rw [if_neg heq.not_lt, if_neg heq.not_gt]
  | gt =>
    have hgt := Nat.compare_eq_gt.1 hcompare
    rw [if_neg hgt.not_gt, if_pos hgt]

theorem divide_of_tmod_pos (mode : Rounding) : mode.divide n d = mode.round (n / d) := by
  have hodd : Even (n.tdiv d) ↔ ¬ (n.tdiv d % 2 == 1) = true := by
    rw [Int.even_iff, beq_iff_eq]
    omega
  rw [divide_of_pos hd, if_neg hr.ne', Int.sign_eq_one_of_pos hr, decide_eq_false hr.not_gt]
  cases mode with
  | ceiling => exact (ceil_div hd hr).symm
  | floor => exact (floor_div hd hr).symm
  | down =>
    simp only [round, if_pos (div_nonneg_of_tmod_pos hd hr), floor_div hd hr]
    rfl
  | up =>
    simp only [round, if_pos (div_nonneg_of_tmod_pos hd hr), ceil_div hd hr]
    rfl
  | halfUp =>
    simp only [round, nearest_div hd hr, if_pos (div_nonneg_of_tmod_pos hd hr), ceil_div hd hr]
    cases compare (2 * (n.tmod d).natAbs) d.natAbs <;> rfl
  | halfEven =>
    simp only [round, nearest_div hd hr, floor_div hd hr, ceil_div hd hr, hodd, ite_not]
    cases compare (2 * (n.tmod d).natAbs) d.natAbs <;> simp [leavesZero]

end Positive

omit hd in
theorem divide_eq_round (mode : Rounding) (n : ℤ) (hd : d ≠ 0) :
    mode.divide n d = mode.round (n / d) := by
  wlog hpos : 0 < d generalizing n d
  · have hneg := this (-n) (neg_ne_zero.2 hd) (by omega)
    rwa [divide_neg_neg mode n hd, Int.cast_neg, Int.cast_neg, neg_div_neg_eq] at hneg
-- below zero a mode does what its mirror image does above
  rcases lt_trichotomy (n.tmod d) 0 with hr | hr | hr
  · have hneg : 0 < (-n).tmod d := by
      rw [Int.neg_tmod]
      omega
    calc
      mode.divide n d = mode.divide (- -n) d := by rw [neg_neg]
      _ = -mode.mirrored.divide (-n) d := divide_neg hpos mode (-n)
      _ = -mode.mirrored.round (-(n / d)) := by
        rw [divide_of_tmod_pos hpos hneg, Int.cast_neg, neg_div]
      _ = mode.round (n / d) := by rw [← round_neg, neg_neg]
  · rw [divide_of_pos hpos, if_pos hr, div_eq_add hpos, hr, Int.cast_zero, zero_div, add_zero,
      round_intCast]
  · exact divide_of_tmod_pos hpos hr mode

end Divide

section Neighbours

variable {mode : Rounding} {x y : ℚ}

theorem nearest_eq {tie : ℤ} (htie : tie = ⌊x⌋ ∨ tie = ⌈x⌉) :
    nearest x tie = ⌊x⌋ ∨ nearest x tie = ⌈x⌉ := by
  unfold nearest
  split_ifs
  · exact .inl rfl
  · exact .inr rfl
  · exact htie

theorem round_eq (mode : Rounding) (x : ℚ) : mode.round x = ⌊x⌋ ∨ mode.round x = ⌈x⌉ := by
  cases mode with
  | ceiling => exact .inr rfl
  | floor => exact .inl rfl
  | halfUp => exact nearest_eq (ite_eq_or_eq _ _ _).symm
  | halfEven => exact nearest_eq (ite_eq_or_eq _ _ _)
  | down => exact ite_eq_or_eq _ _ _
  | up => exact (ite_eq_or_eq _ _ _).symm

theorem floor_le_round (mode : Rounding) (x : ℚ) : ⌊x⌋ ≤ mode.round x := by
  rcases round_eq mode x with h | h <;> rw [h]
  exact Int.floor_le_ceil x

theorem abs_sub_round_lt_one (mode : Rounding) (x : ℚ) : |x - mode.round x| < 1 := by
  rw [abs_lt]
  rcases round_eq mode x with h | h <;> rw [h]
  · constructor <;> linarith [Int.floor_le x, Int.lt_floor_add_one x]
  · constructor <;> linarith [Int.le_ceil x, Int.ceil_lt_add_one x]

theorem round_down_of_nonpos (hx : x ≤ 0) : down.round x = ⌈x⌉ := by
  rw [round]
  split
  case isTrue h => simp [le_antisymm hx h]
  case isFalse => rfl

theorem round_up_of_nonpos (hx : x ≤ 0) : up.round x = ⌊x⌋ := by
  rw [round]
  split
  case isTrue h => simp [le_antisymm hx h]
  case isFalse => rfl

theorem round_down_of_nonneg (hx : 0 ≤ x) : down.round x = ⌊x⌋ := if_pos hx

theorem round_up_of_nonneg (hx : 0 ≤ x) : up.round x = ⌈x⌉ := if_pos hx

theorem round_down_eq_floor_iff : down.round x = ⌊x⌋ ↔ 0 ≤ x ∨ Int.fract x = 0 := by
  by_cases hfract : Int.fract x = 0
  · obtain ⟨n, rfl⟩ := Int.fract_eq_zero_iff.1 hfract
    simp
  · have hceil : ⌈x⌉ ≠ ⌊x⌋ := by
      rw [ceil_eq_floor_add_one hfract]
      omega
    simp only [round, hfract, or_false, ite_eq_left_iff, hceil, imp_false, not_not]

/-- Two numbers that were rounded past each other would lie at one tie. -/
theorem round_le_round_of_half (hmode : mode = .halfUp ∨ mode = .halfEven) (hxy : x ≤ y) :
    mode.round x ≤ mode.round y := by
  refine le_of_not_gt fun hlt => ?_
  have hstep : (mode.round y + 1 : ℚ) ≤ mode.round x := by exact_mod_cast hlt
  have hx := abs_le.1 (abs_sub_round_le_half hmode x)
  have hy := abs_le.1 (abs_sub_round_le_half hmode y)
  obtain rfl : x = y := by linarith
  exact lt_irrefl _ hlt

theorem round_mono (mode : Rounding) (hxy : x ≤ y) : mode.round x ≤ mode.round y := by
  cases mode with
  | ceiling => exact Int.ceil_mono hxy
  | floor => exact Int.floor_mono hxy
  | halfUp => exact round_le_round_of_half (.inl rfl) hxy
  | halfEven => exact round_le_round_of_half (.inr rfl) hxy
  | down =>
    rcases le_total 0 x with hx | hx
    · rw [round_down_of_nonneg hx, round_down_of_nonneg (hx.trans hxy)]
      exact Int.floor_mono hxy
    · rw [round_down_of_nonpos hx]
      rcases le_total 0 y with hy | hy
      · rw [round_down_of_nonneg hy]
        exact (Int.ceil_nonpos.2 hx).trans (Int.floor_nonneg.2 hy)
      · rw [round_down_of_nonpos hy]
        exact Int.ceil_mono hxy
  | up =>
    rcases le_total 0 x with hx | hx
    · rw [round_up_of_nonneg hx, round_up_of_nonneg (hx.trans hxy)]
      exact Int.ceil_mono hxy
    · rw [round_up_of_nonpos hx]
      rcases le_total 0 y with hy | hy
      · rw [round_up_of_nonneg hy]
        exact (Int.floor_mono hxy).trans (Int.floor_le_ceil y)
      · rw [round_up_of_nonpos hy]
        exact Int.floor_mono hxy

end Neighbours

section Twice

variable {k : ℕ} (hk : k ≠ 0) (x : ℚ)

include hk

theorem floor_floor_mul_div : ⌊(⌊x * k⌋ / k : ℚ)⌋ = ⌊x⌋ := by
  rw [Int.floor_div_natCast, Int.floor_intCast, Int.mul_natCast_floor_div_cancel hk]

theorem ceil_ceil_mul_div : ⌈(⌈x * k⌉ / k : ℚ)⌉ = ⌈x⌉ := by
  have hfloor := floor_floor_mul_div hk (-x)
  rwa [neg_mul, Int.floor_neg, Int.cast_neg, neg_div, Int.floor_neg, Int.floor_neg, neg_inj]
    at hfloor

theorem round_round_mul_div {mode : Rounding} (hmode : mode ∈ [.ceiling, .floor, .down, .up]) :
    mode.round (mode.round (x * k) / k) = mode.round x := by
  have hk' : (0 : ℚ) ≤ k := Nat.cast_nonneg k
  simp only [List.mem_cons, List.not_mem_nil, or_false] at hmode
  rcases hmode with rfl | rfl | rfl | rfl
  · exact ceil_ceil_mul_div hk x
  · exact floor_floor_mul_div hk x
  · rcases le_total 0 x with hx | hx
    · have hkept : (0 : ℚ) ≤ ⌊x * k⌋ := Int.cast_nonneg (Int.floor_nonneg.2 (mul_nonneg hx hk'))
      rw [round_down_of_nonneg hx, round_down_of_nonneg (mul_nonneg hx hk'),
        round_down_of_nonneg (div_nonneg hkept hk'), floor_floor_mul_div hk]
    · have hx' : x * k ≤ 0 := mul_nonpos_of_nonpos_of_nonneg hx hk'
      have hkept : (⌈x * k⌉ : ℚ) ≤ 0 := Int.cast_nonpos.2 (Int.ceil_nonpos.2 hx')
      rw [round_down_of_nonpos hx, round_down_of_nonpos hx',
        round_down_of_nonpos (div_nonpos_of_nonpos_of_nonneg hkept hk'), ceil_ceil_mul_div hk]
  · rcases le_total 0 x with hx | hx
    · have hkept : (0 : ℚ) ≤ ⌈x * k⌉ := Int.cast_nonneg (Int.ceil_nonneg (mul_nonneg hx hk'))
      rw [round_up_of_nonneg hx, round_up_of_nonneg (mul_nonneg hx hk'),
        round_up_of_nonneg (div_nonneg hkept hk'), ceil_ceil_mul_div hk]
    · have hx' : x * k ≤ 0 := mul_nonpos_of_nonpos_of_nonneg hx hk'
      have hkept : (⌊x * k⌋ : ℚ) ≤ 0 := Int.cast_nonpos.2 (Int.floor_nonpos hx')
      rw [round_up_of_nonpos hx, round_up_of_nonpos hx',
        round_up_of_nonpos (div_nonpos_of_nonpos_of_nonneg hkept hk'), floor_floor_mul_div hk]

end Twice

end ScriptValue.Rounding
