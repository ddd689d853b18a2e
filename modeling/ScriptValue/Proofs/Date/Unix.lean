import ScriptValue.Coercion.Moment
import ScriptValue.Proofs.Number.Integral

namespace ScriptValue

theorem compare_mul_add {k r s : Nat} (hr : r < k) (hs : s < k) (a b : Int) :
    compare (a * k + r) (b * k + s) = (compare a b).then (compare r s) := by
  have hstep {m n : Int} (h : m < n) : m * k + k ≤ n * k := by
    rw [← add_one_mul]
    exact Int.mul_le_mul_of_nonneg_right h (Int.natCast_nonneg k)
  rcases lt_trichotomy a b with hab | rfl | hab
  · have hlt := hstep hab
    rw [compare_lt_iff_lt.2 hab, compare_lt_iff_lt.2 (by omega)]
    rfl
  · rw [compare_eq_iff_eq.2 rfl]
    rcases lt_trichotomy r s with hrs | rfl | hrs
    · rw [compare_lt_iff_lt.2 hrs, compare_lt_iff_lt.2 (by omega)]
      rfl
    · rw [compare_eq_iff_eq.2 rfl, compare_eq_iff_eq.2 rfl]
      rfl
    · rw [compare_gt_iff_gt.2 hrs, compare_gt_iff_gt.2 (by omega)]
      rfl
  · have hgt := hstep hab
    rw [compare_gt_iff_gt.2 hab, compare_gt_iff_gt.2 (by omega)]
    rfl

namespace DateLibrary

theorem nanosPerSecond_eq : nanosPerSecond = tenTo 9 := by decide

theorem nanosPerSecond_pos : (0 : ℚ) < nanosPerSecond := Nat.cast_pos.2 (by decide)

theorem fract_mul_nonneg (q : ℚ) : 0 ≤ Int.fract q * nanosPerSecond :=
  mul_nonneg (Int.fract_nonneg q) nanosPerSecond_pos.le

theorem floor_fract_lt (q : ℚ) : ⌊Int.fract q * nanosPerSecond⌋.toNat < nanosPerSecond := by
  have hlt : Int.fract q * nanosPerSecond < nanosPerSecond :=
    mul_lt_of_lt_one_left nanosPerSecond_pos (Int.fract_lt_one q)
  rw [Int.toNat_lt' (by decide), Int.floor_lt]
  exact_mod_cast hlt

theorem floor_mul_nanosPerSecond (q : ℚ) :
    ⌊q * nanosPerSecond⌋ =
      ⌊q⌋ * nanosPerSecond + (⌊Int.fract q * nanosPerSecond⌋.toNat : Int) := by
  have hnonneg : 0 ≤ ⌊Int.fract q * nanosPerSecond⌋ := Int.floor_nonneg.2 (fract_mul_nonneg q)
  have hsplit : q * nanosPerSecond =
      (⌊q⌋ * (nanosPerSecond : Int) : Int) + Int.fract q * nanosPerSecond := by
    push_cast
    rw [← add_mul, Int.floor_add_fract]
  rw [hsplit, Int.floor_intCast_add, Int.toNat_of_nonneg hnonneg]

variable [DateLibrary] {t u : Moment}

/-- The nanoseconds from the start of 1970; those of a leap second are counted twice. -/
def unixNanos (t : Moment) : Int := unixSeconds t * nanosPerSecond + nano t

def unixTime (t : Moment) : ℚ := unixNanos t / nanosPerSecond

theorem unixTime_eq_add (t : Moment) : unixTime t = unixSeconds t + nano t / nanosPerSecond := by
  have hne := nanosPerSecond_pos.ne'
  rw [unixTime, unixNanos]
  push_cast
  field_simp

theorem denotes_ofMoment (t : Moment) : (Decimal.ofMoment t).Denotes (unixTime t) := by
  refine Decimal.denotes_ofScaled (by decide) ?_
  rw [unixTime, ← nanosPerSecond_eq, div_mul_cancel₀ _ nanosPerSecond_pos.ne']
  rfl

theorem floor_unixTime (t : Moment) :
    ⌊unixTime t⌋ = unixSeconds t + (nano t / nanosPerSecond : Nat) := by
  rw [unixTime, Int.floor_div_natCast, Int.floor_intCast, unixNanos, Int.add_comm,
    Int.add_mul_ediv_right _ _ (by decide), Int.add_comm]
  rfl

theorem unixSeconds_eq_floor_iff : unixSeconds t = ⌊unixTime t⌋ ↔ nano t < nanosPerSecond := by
  rw [floor_unixTime, left_eq_add, Nat.cast_eq_zero, Nat.div_eq_zero_iff_lt (by decide)]

theorem fract_unixTime (ht : nano t < nanosPerSecond) :
    Int.fract (unixTime t) * nanosPerSecond = nano t := by
  rw [← Int.self_sub_floor, ← unixSeconds_eq_floor_iff.2 ht, unixTime_eq_add, add_sub_cancel_left,
    div_mul_cancel₀ _ nanosPerSecond_pos.ne']

theorem unixTime_eq_intCast_iff :
    (∃ n : ℤ, unixTime t = n) ↔ nanosPerSecond ∣ nano t := by
  have hdvd : nanosPerSecond ∣ nano t ↔ (nanosPerSecond : Int) ∣ unixNanos t := by
    rw [unixNanos, Int.dvd_add_right (Int.dvd_mul_left ..), Int.natCast_dvd_natCast]
  rw [hdvd, Int.dvd_def]
  refine exists_congr fun n => ?_
  rw [unixTime, div_eq_iff nanosPerSecond_pos.ne', mul_comm]
  exact_mod_cast Iff.rfl

variable [Lawful]

theorem toWord?_unixSeconds (t : Moment) :
    Integer.toWord? (.finite (unixSeconds t)) = some (unixSeconds t) :=
  if_pos ⟨Lawful.le_unixSeconds t, Lawful.unixSeconds_le t⟩

theorem compare_unixTime (ht : nano t < nanosPerSecond) (hu : nano u < nanosPerSecond) :
    compare (unixTime t) (unixTime u) = compare t u := by
  calc
    compare (unixTime t) (unixTime u) = cmp (unixTime t) (unixTime u) := (cmp_eq_compare _ _).symm
    _ = cmp (unixTime t * nanosPerSecond) (unixTime u * nanosPerSecond) :=
      (cmp_mul_pos_right nanosPerSecond_pos _ _).symm
    _ = cmp (unixNanos t : ℚ) (unixNanos u) := by
      rw [unixTime, unixTime, div_mul_cancel₀ _ nanosPerSecond_pos.ne',
        div_mul_cancel₀ _ nanosPerSecond_pos.ne']
    _ = cmp (unixNanos t) (unixNanos u) := Int.cast_strictMono.cmp_map_eq _ _
    _ = compare (unixNanos t) (unixNanos u) := cmp_eq_compare _ _
    _ = compare t u := by
      rw [unixNanos, unixNanos, compare_mul_add ht hu, Lawful.compare_eq_then ht hu]

theorem ofUnixDecimal?_eq_ofUnix? {x : Decimal} {q : ℚ} (hx : x.Denotes q) (t : Moment)
    (ht : unixSeconds t = ⌊q⌋) :
    ofUnixDecimal? x = ofUnix? ⌊q⌋ ⌊Int.fract q * nanosPerSecond⌋.toNat := by
  let nanos := ⌊Int.fract q * nanosPerSecond⌋
  have hlow : 0 ≤ nanos := Int.floor_nonneg.2 (fract_mul_nonneg q)
  have hhigh : nanos.toNat < 1000000000 := floor_fract_lt q
  have hnanos : ((x.minus x.floor).times (.ofInt nanosPerSecond)).toInteger = .finite nanos := by
    have hrest := (hx.minus (Decimal.denotes_ofInt ⌊q⌋)).times_ofInt nanosPerSecond
    rw [← hx.floor, Int.self_sub_floor] at hrest
    rw [hrest.toInteger, Int.cast_natCast,
      Rounding.round_down_of_nonneg (fract_mul_nonneg q)]
  have hword : Integer.toWord? (.finite nanos) = some nanos := if_pos (by omega)
  have hfit : nanos? nanos = some nanos.toNat := if_pos (by omega)
  have hseconds : x.floor.toInteger.toWord? = some ⌊q⌋ := by
    rw [hx.floor, (Decimal.denotes_ofInt ⌊q⌋).toInteger, Rounding.round_intCast, ← ht,
      toWord?_unixSeconds]
  simp only [ofUnixDecimal?, hnanos, hword, hseconds, hfit, Option.bind_eq_bind, Option.bind_some]
  rfl

theorem ofUnixDecimal?_ofMoment (ht : nano t < nanosPerSecond) :
    ofUnixDecimal? (.ofMoment t) = some t := by
  have hfloor : unixSeconds t = ⌊unixTime t⌋ := unixSeconds_eq_floor_iff.2 ht
  rw [ofUnixDecimal?_eq_ofUnix? (denotes_ofMoment t) t hfloor,
    Lawful.ofUnix?_eq_some_iff (floor_fract_lt _), fract_unixTime ht, Int.floor_natCast,
    Int.toNat_natCast]
  exact ⟨hfloor, rfl⟩

theorem exists_ofUnixDecimal?_eq_some {x : Decimal} {q : ℚ} (hx : x.Denotes q) (t : Moment)
    (ht : unixSeconds t = ⌊q⌋) :
    ∃ u, ofUnixDecimal? x = some u ∧ .ofMoment u = x.roundTo 9 .floor := by
  obtain ⟨u, hu⟩ := Lawful.exists_ofUnix?_eq_some t (floor_fract_lt q)
  rw [ht] at hu
  refine ⟨u, (ofUnixDecimal?_eq_ofUnix? hx t ht).trans hu, ?_⟩
  obtain ⟨hseconds, hnano⟩ := (Lawful.ofUnix?_eq_some_iff (floor_fract_lt q)).1 hu
  have hround := hx.roundTo 9 .floor
  have htime : unixTime u = Rounding.floor.round (q * tenTo 9) / tenTo 9 := by
    rw [unixTime, unixNanos, hseconds, hnano, ← floor_mul_nanosPerSecond, nanosPerSecond_eq]
    rfl
  rw [← htime] at hround
  exact (denotes_ofMoment u).eq hround

end DateLibrary

end ScriptValue
