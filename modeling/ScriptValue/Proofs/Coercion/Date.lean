import ScriptValue.Proofs.Coercion.Singleton
import ScriptValue.Proofs.Date.Gregorian

namespace ScriptValue.Context

open DateLibrary

section

variable [DateLibrary] {ctx : Context} {t : Moment} {x : Decimal}

@[simp] theorem convert_decimal_date (ctx : Context) (t : Moment) :
    ctx.convert .decimal (.date t) = .ok (.ofMoment t) := rfl

@[simp] theorem convert_number_date (ctx : Context) (t : Moment) :
    ctx.convert .number (.date t) = .ok (Number.decimal (.ofMoment t)).simplify := rfl

theorem convert_date_decimal_of_some (h : ofUnixDecimal? x = some t) :
    ctx.convert .date (.decimal x) = .ok t :=
  Access.convertWhole_of_some h

/--
A date that is no leap second is turned into a decimal and back without a change, before and after
1970, and the decimals are in the order of the dates. A decimal whose floor is the seconds of a date
is turned into a date as well, and back into the decimal of nine digits below it. As a number a date
is whole where its nanoseconds make up whole seconds, as they do where there are none.
-/
theorem convert_date_decimal_exact [Lawful] (ctx : Context) :
    (∀ t : Moment, nano t < nanosPerSecond →
      ∃ x, ctx.convert .decimal (.date t) = .ok x ∧ x.Denotes (unixTime t) ∧
        ctx.convert .date (.decimal x) = .ok t) ∧
    (∀ t u : Moment, nano t < nanosPerSecond → nano u < nanosPerSecond →
      ∃ x y, ctx.convert .decimal (.date t) = .ok x ∧ ctx.convert .decimal (.date u) = .ok y ∧
        x.compare y = compare t u) ∧
    (∀ (x : Decimal) (t : Moment), x.floor = .ofInt (unixSeconds t) →
      ∃ q u, x.Denotes q ∧ ctx.convert .date (.decimal x) = .ok u ∧
        ctx.convert .decimal (.date u) = .ok (x.roundTo 9 .floor) ∧
        (x.roundTo 9 .floor).Denotes (⌊q * tenTo 9⌋ / tenTo 9)) ∧
    ∀ t : Moment, ∃ x, ctx.convert .number (.date t) = .ok x ∧ x.value? = some (unixTime t) ∧
      ((∃ n, x = .integer n) ↔ nanosPerSecond ∣ nano t) ∧
      (nano t < nanosPerSecond → ((∃ n, x = .integer n) ↔ nano t = 0)) := by
  refine ⟨fun t ht => ?_, fun t u ht hu => ?_, fun x t hx => ?_, fun t => ?_⟩
  · exact ⟨_, rfl, denotes_ofMoment t,
      convert_date_decimal_of_some (ofUnixDecimal?_ofMoment ht)⟩
  · refine ⟨_, _, rfl, rfl, ?_⟩
    rw [← compare_unixTime ht hu]
    exact Number.compare_of_value? (denotes_ofMoment t) (denotes_ofMoment u)
  · obtain ⟨q, hq, hfloor⟩ := Decimal.exists_denotes_of_floor hx
    obtain ⟨u, hu, hround⟩ := exists_ofUnixDecimal?_eq_some hq t hfloor.symm
    refine ⟨q, u, hq, convert_date_decimal_of_some hu, ?_, hq.roundTo 9 .floor⟩
    rw [convert_decimal_date, hround]
  · have hwhole : (∃ n, (Number.decimal (.ofMoment t)).simplify = .integer n) ↔
        nanosPerSecond ∣ nano t := by
      rw [Number.exists_simplify_eq_integer_iff, (denotes_ofMoment t).isIntegral_iff,
        unixTime_eq_intCast_iff]
    refine ⟨_, rfl, (Number.value?_simplify _).trans (denotes_ofMoment t), hwhole, fun ht => ?_⟩
    exact hwhole.trans ⟨(Nat.eq_zero_of_dvd_of_lt · ht), fun h => h ▸ Nat.dvd_zero _⟩

end

theorem convert_date_decimal_exact_before_1970 :
    let ctx := ofConfig .standard
    let t : DateTime := ⟨-1, 86399, 500000000, by decide, by decide, by decide, by decide⟩
    let u : DateTime := ⟨-1, 86399, 0, by decide, by decide, by decide, by decide⟩
    let x : Decimal := .finite ⟨-7123456789, 10, by decide, .inr (by decide)⟩
    nano t < nanosPerSecond ∧ nano u < nanosPerSecond ∧
      (∃ y, ctx.convert .decimal (.date t) = .ok y ∧ y.Denotes (unixTime t) ∧
        ctx.convert .date (.decimal y) = .ok t) ∧
      (∃ y z, ctx.convert .decimal (.date u) = .ok y ∧ ctx.convert .decimal (.date t) = .ok z ∧
        y.compare z = compare u t) ∧
      compare u t = .lt ∧ x.floor = .ofInt (unixSeconds u) ∧
      (∃ v, ctx.convert .date (.decimal x) = .ok v ∧
        ctx.convert .decimal (.date v) =
          .ok (.finite ⟨-712345679, 9, by decide, .inr (by decide)⟩)) ∧
      ∃ y, ctx.convert .number (.date u) = .ok y ∧ ((∃ n, y = .integer n) ↔ nano u = 0) := by
  intro ctx t u x
  have ht : nano t < nanosPerSecond := by decide
  have hu : nano u < nanosPerSecond := by decide
  have hx : x.floor = .ofInt (unixSeconds u) := by decide
  have hround : x.roundTo 9 .floor = .finite ⟨-712345679, 9, by decide, .inr (by decide)⟩ := by
    decide
  obtain ⟨hdate, horder, hdecimal, hnumber⟩ := convert_date_decimal_exact ctx
  obtain ⟨q, v, -, hv, hback, -⟩ := hdecimal x u hx
  obtain ⟨y, hy, -, -, hwhole⟩ := hnumber u
  exact ⟨ht, hu, hdate t ht, horder u t hu ht, by decide, hx, ⟨v, hv, hround ▸ hback⟩, y, hy,
    hwhole hu⟩

end ScriptValue.Context
