import ScriptValue.Proofs.Coercion.Date

namespace ScriptValue

open DateLibrary

section

variable [DateLibrary]

theorem DateLibrary.unixSeconds_eq_round_down_iff {t : Moment} :
    unixSeconds t = Rounding.down.round (unixTime t) ↔
      nano t < nanosPerSecond ∧ (0 ≤ unixSeconds t ∨ nano t = 0) := by
  have hseconds : unixSeconds t ≤ ⌊unixTime t⌋ := by
    rw [floor_unixTime]
    exact Int.le_add_of_nonneg_right (Int.natCast_nonneg _)
  have hround : ⌊unixTime t⌋ ≤ Rounding.down.round (unixTime t) := Rounding.floor_le_round _ _
  have hboth : unixSeconds t = Rounding.down.round (unixTime t) ↔
      unixSeconds t = ⌊unixTime t⌋ ∧ Rounding.down.round (unixTime t) = ⌊unixTime t⌋ := by
    omega
  rw [hboth, unixSeconds_eq_floor_iff]
  refine and_congr_right fun ht => ?_
  have hfract : Int.fract (unixTime t) = 0 ↔ nano t = 0 := by
    rw [← Nat.cast_eq_zero (R := ℚ), ← fract_unixTime ht, mul_eq_zero,
      or_iff_left nanosPerSecond_pos.ne']
  rw [Rounding.round_down_eq_floor_iff, hfract, ← Int.floor_nonneg, ← unixSeconds_eq_floor_iff.2 ht]

namespace Context

/-- The whole numbers that a value is turned into at once, as a decimal first, and as a number. -/
structure TurnsWhole (ctx : Context) (v : Value) (direct viaDecimal viaNumber : Integer) :
    Prop where
  direct : ctx.convert .integer v = .ok direct
  viaDecimal :
    (ctx.convert .decimal v >>= fun x => ctx.convert .integer (.decimal x)) = .ok viaDecimal
  viaNumber : (ctx.convert .number v).map Number.toInteger = .ok viaNumber

theorem TurnsWhole.direct_eq_viaNumber {ctx : Context} {v : Value}
    {direct viaDecimal viaNumber n : Integer} (h : ctx.TurnsWhole v direct viaDecimal viaNumber)
    (hn : ctx.TurnsWhole v n n n) : direct = viaNumber := by
  obtain rfl : direct = n := Except.ok.inj (h.direct.symm.trans hn.direct)
  exact Except.ok.inj (hn.viaNumber.symm.trans h.viaNumber)

theorem turnsWhole_integer (ctx : Context) (n : Integer) :
    ctx.TurnsWhole (.integer n) n n n where
  direct := rfl
  viaDecimal := congrArg Except.ok (Decimal.toInteger_ofInteger n)
  viaNumber := rfl

theorem turnsWhole_decimal (ctx : Context) (x : Decimal) :
    ctx.TurnsWhole (.decimal x) x.toInteger x.toInteger x.toInteger :=
  ⟨rfl, rfl, rfl⟩

theorem turnsWhole_date (ctx : Context) (t : Moment) :
    ctx.TurnsWhole (.date t) (.finite (unixSeconds t)) (.finite (Rounding.down.round (unixTime t)))
      (.finite (Rounding.down.round (unixTime t))) where
  direct := rfl
  viaDecimal := congrArg Except.ok (denotes_ofMoment t).toInteger
  viaNumber := by
    rw [convert_number_date, Except.map, Number.toInteger_simplify]
    exact congrArg Except.ok (denotes_ofMoment t).toInteger

/--
Whole numbers and decimals come to the same whole number whichever way they are turned into one. A
date comes to its whole seconds at once, and as a decimal and as a number to its time cut toward
zero. The seconds are the floor of the time unless the date is a leap second, and what the time is
cut to where moreover the date lies in or after 1970 or has no fraction of a second.
-/
theorem turnsWhole_numeric (ctx : Context) :
    (∀ n : Integer, ctx.TurnsWhole (.integer n) n n n) ∧
    (∀ x : Decimal, ctx.TurnsWhole (.decimal x) x.toInteger x.toInteger x.toInteger) ∧
    ∀ t : Moment,
      ctx.TurnsWhole (.date t) (.finite (unixSeconds t))
        (.finite (Rounding.down.round (unixTime t)))
        (.finite (Rounding.down.round (unixTime t))) ∧
      (unixSeconds t = ⌊unixTime t⌋ ↔ nano t < nanosPerSecond) ∧
      (unixSeconds t = Rounding.down.round (unixTime t) ↔
        nano t < nanosPerSecond ∧ (0 ≤ unixSeconds t ∨ nano t = 0)) :=
  ⟨turnsWhole_integer ctx, turnsWhole_decimal ctx,
    fun t => ⟨turnsWhole_date ctx t, unixSeconds_eq_floor_iff, unixSeconds_eq_round_down_iff⟩⟩

end Context

end

theorem Context.not_turnsWhole_before_1970 :
    let ctx := Context.ofConfig .standard
    let t : DateTime := ⟨-1, 86399, 500000000, by decide, by decide, by decide, by decide⟩
    let u : DateTime := ⟨0, 59, 1500000000, by decide, by decide, by decide, by decide⟩
    ctx.TurnsWhole (.date t) (.finite (-1)) (.finite 0) (.finite 0) ∧
      ctx.TurnsWhole (.date u) (.finite 59) (.finite 60) (.finite 60) ∧
      (¬ ∃ n, ctx.TurnsWhole (.date t) n n n) ∧ ¬ ∃ n, ctx.TurnsWhole (.date u) n n n := by
  intro ctx t u
  have ht : ctx.TurnsWhole (.date t) (.finite (-1)) (.finite 0) (.finite 0) :=
    ⟨rfl, congrArg Except.ok (by decide), congrArg Except.ok (by decide)⟩
  have hu : ctx.TurnsWhole (.date u) (.finite 59) (.finite 60) (.finite 60) :=
    ⟨rfl, congrArg Except.ok (by decide), congrArg Except.ok (by decide)⟩
  refine ⟨ht, hu, ?_, ?_⟩
  · rintro ⟨n, hn⟩
    exact absurd (ht.direct_eq_viaNumber hn) (by decide)
  · rintro ⟨n, hn⟩
    exact absurd (hu.direct_eq_viaNumber hn) (by decide)

end ScriptValue
