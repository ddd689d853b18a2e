import ScriptValue.Date.Reader
import ScriptValue.Number.Format
import ScriptValue.Proofs.Coercion.Singleton
import ScriptValue.Proofs.Number.Reading
import ScriptValue.Proofs.Number.RoundTo

namespace ScriptValue

namespace Literal

theorem digits_leftpad {t : Text} (ht : Digits t) (n : Nat) : Digits (t.leftpad n '0') :=
  List.forall_mem_append.2 ⟨digits_replicate _, ht⟩

theorem digits_rightpad {t : Text} (ht : Digits t) (n : Nat) : Digits (t.rightpad n '0') :=
  List.forall_mem_append.2 ⟨ht, digits_replicate _⟩

theorem value_leftpad (t : Text) (n : Nat) : value (t.leftpad n '0') = value t := by
  rw [List.leftpad, value_append, value_replicate, Nat.zero_mul, Nat.zero_add]

theorem value_rightpad (t : Text) (n : Nat) :
    value (t.rightpad n '0') = value t * tenTo (n - t.length) := by
  rw [List.rightpad, value_append, value_replicate, List.length_replicate, Nat.add_zero]

end Literal

open Literal

theorem signed_mul (negative : Bool) (m n : Nat) :
    signed negative (m * n) = signed negative m * n := by
  cases negative with
  | true => simp [signed]
  | false => simp [signed]

theorem Decimal.ofScaled_mul_tenTo {x : Scaled} {k : Nat} (h : x.scale + k ≤ maxScale) :
    ofScaled (x.unscaled * tenTo k) (x.scale + k) = .finite x := by
  refine (denotes_ofScaled h ?_).eq (denotes_finite x)
  rw [Int.cast_mul, cast_unscaled, tenTo_add, Nat.cast_mul, mul_assoc]
  rfl

theorem Positional.ofScaled_ofInt (n : Int) : Positional.ofScaled (.ofInt n) = .ofInt n := by
  have hpos : 0 < (Nat.toDigits 10 n.natAbs).length := List.length_pos_iff.2 Nat.toDigits_ne_nil
  have hdigits : Positional.digits (.ofInt n) = Nat.toDigits 10 n.natAbs := by
    have hzero : (Scaled.ofInt n).scale + 1 - (Nat.toDigits 10 n.natAbs).length = 0 :=
      Nat.sub_eq_zero_of_le hpos
    change List.leftpad _ _ (Nat.toDigits 10 n.natAbs) = _
    rw [List.leftpad, hzero]
    rfl
  rw [Positional.ofScaled_eq, hdigits]
  exact congrArg₂ _ (List.take_length ..) (List.drop_length ..)

namespace NumberFormat

variable {f : NumberFormat} {p : Positional} {pattern : Text}

theorem bounds_of_parse (h : parse pattern = .ok f) :
    f.minFraction ≤ f.maxFraction ∧ f.maxFraction ≤ maxScale := by
  rw [parse] at h
  generalize (pattern.splitFirst '.').getD (pattern, []) = parts at h
  obtain ⟨whole, fraction⟩ := parts
  dsimp only at h
  split at h
  case isTrue => cases h
  case isFalse hvalid =>
    cases h
    rw [not_or, not_or, not_or, Nat.not_lt] at hvalid
    exact ⟨(List.takeWhile_prefix _).length_le, hvalid.2.2.2⟩

def shownWhole (f : NumberFormat) (p : Positional) : Text :=
  if f.minWhole = 0 ∧ p.whole = ['0'] ∧ p.fraction ≠ [] then [] else p.whole

def padded (f : NumberFormat) (p : Positional) : Positional :=
  ⟨p.negative, (f.shownWhole p).leftpad f.minWhole '0', p.fraction.rightpad f.minFraction '0'⟩

theorem showPositional_eq (f : NumberFormat) (p : Positional) :
    f.showPositional p = (f.padded p).render := rfl

theorem value_shownWhole (f : NumberFormat) (p : Positional) :
    value (f.shownWhole p) = value p.whole := by
  rw [shownWhole]
  split
  case isTrue h =>
    rw [h.2.1]
    rfl
  case isFalse => rfl

theorem length_whole_padded (f : NumberFormat) (p : Positional) :
    (f.padded p).whole.length = max f.minWhole (f.shownWhole p).length :=
  List.length_leftpad ..

theorem length_fraction_padded (f : NumberFormat) (p : Positional) :
    (f.padded p).fraction.length = max f.minFraction p.fraction.length := by
  rw [padded, List.rightpad, List.length_append, List.length_replicate]
  omega

theorem value_padded (f : NumberFormat) (p : Positional) :
    value ((f.padded p).whole ++ (f.padded p).fraction) =
      value (p.whole ++ p.fraction) * tenTo (f.minFraction - p.fraction.length) := by
  have hlength : (f.padded p).fraction.length =
      p.fraction.length + (f.minFraction - p.fraction.length) := by
    rw [length_fraction_padded]
    omega
  rw [value_append, value_append, hlength, tenTo_add, padded, value_leftpad, value_shownWhole,
    value_rightpad]
  ring

theorem valid_padded (h : p.Valid) : (f.padded p).Valid := by
  have hwhole : Digits (f.shownWhole p) := by
    rw [shownWhole]
    split
    · exact List.forall_mem_nil _
    · exact h.isDigit_whole
  refine ⟨digits_leftpad hwhole _, digits_rightpad h.isDigit_fraction _, ?_⟩
  rintro ⟨hnil, hnil'⟩
  have hfraction : p.fraction = [] := (List.append_eq_nil_iff.1 hnil').1
  have hshown : f.shownWhole p = [] := (List.append_eq_nil_iff.1 hnil).2
  rw [shownWhole, if_neg fun hzero => hzero.2.2 hfraction] at hshown
  exact h.ne_nil ⟨hshown, hfraction⟩

theorem parse_showPositional (hmin : f.minFraction ≤ maxScale) (y : Scaled) :
    Decimal.parse (f.showPositional (.ofScaled y)) = .ok (.finite y) := by
  let p := Positional.ofScaled y
  have hscale : p.fraction.length = y.scale := Positional.length_fraction y
  have hlength : (f.padded p).fraction.length = y.scale + (f.minFraction - y.scale) := by
    rw [length_fraction_padded, hscale]
    omega
  have hle : y.scale + (f.minFraction - y.scale) ≤ maxScale := by
    have hy := y.scale_le
    omega
  have hdigits : signed p.negative (value (p.whole ++ p.fraction)) = y.unscaled := by
    rw [Positional.whole_append_fraction, Positional.signed_digits]
  have hvalid : (f.padded p).Valid := valid_padded (Positional.valid_ofScaled y)
  have hparse := Decimal.parse_positional hvalid (hlength ▸ hle)
  rw [value_padded, hscale, hlength, signed_mul] at hparse
  rw [showPositional_eq, hparse]
  change Except.ok (Decimal.ofScaled (signed p.negative _ * _) _) = _
  rw [hdigits, Decimal.ofScaled_mul_tenTo hle]

/--
A sign where it is asked for, and digits around a point in the numbers that the format allows.
-/
def LaidOut (f : NumberFormat) (negative : Bool) (t : Text) : Prop :=
  ∃ whole fraction : Text,
    t = (if negative then ['-'] else []) ++ whole ++
      (if fraction = [] then [] else '.' :: fraction) ∧
    Digits whole ∧ Digits fraction ∧ f.minWhole ≤ whole.length ∧
    f.minFraction ≤ fraction.length ∧ fraction.length ≤ f.maxFraction

theorem laidOut_showPositional (hmin : f.minFraction ≤ f.maxFraction) {y : Scaled}
    (hy : y.scale ≤ f.maxFraction) :
    f.LaidOut (Extended.isNegative (.finite y)) (f.showPositional (.ofScaled y)) := by
  let p := Positional.ofScaled y
  have hvalid : (f.padded p).Valid := valid_padded (Positional.valid_ofScaled y)
  have hnegative : Extended.isNegative (.finite y) = p.negative :=
    decide_eq_decide.2 Int.sign_neg_iff
  have hwhole := length_whole_padded f p
  have hfraction := length_fraction_padded f p
  have hscale : p.fraction.length = y.scale := Positional.length_fraction y
  refine ⟨(f.padded p).whole, (f.padded p).fraction, ?_, hvalid.isDigit_whole,
    hvalid.isDigit_fraction, by omega, by omega, by omega⟩
  rw [hnegative, showPositional_eq]
  rfl

theorem showNumber_eq (f : NumberFormat) (x : Number) :
    f.showNumber x = f.showDecimal x.toDecimal := by
  obtain (n | _ | _ | _) | d := x
  case integer.finite =>
    have hround : Decimal.roundTo f.maxFraction .halfEven (.finite (.ofInt n)) =
        .finite (.ofInt n) := Decimal.roundTo_of_le _ (Nat.zero_le _)
    change f.showPositional (.ofInt n) = f.showDecimal (.finite (.ofInt n))
    rw [showDecimal, hround]
    dsimp only
    rw [Positional.ofScaled_ofInt]
  all_goals rfl

theorem showDecimal_eq {d : Decimal} {y : Scaled}
    (h : d.roundTo f.maxFraction .halfEven = .finite y) :
    f.showDecimal d = f.showPositional (.ofScaled y) := by
  rw [showDecimal, h]

theorem parse_showDecimal (hmin : f.minFraction ≤ maxScale) (d : Decimal) :
    Decimal.parse (f.showDecimal d) = .ok (d.roundTo f.maxFraction .halfEven) := by
  cases d with
  | finite x =>
    obtain ⟨y, hy, -⟩ := ((Decimal.denotes_finite x).roundTo f.maxFraction .halfEven).exists_eq
    rw [showDecimal_eq hy, hy, parse_showPositional hmin]
  | nan => exact Decimal.parse_render .nan
  | infinity => exact Decimal.parse_render .infinity
  | negInfinity => exact Decimal.parse_render .negInfinity

theorem showDecimal_roundTo (f : NumberFormat) (d : Decimal) :
    f.showDecimal (d.roundTo f.maxFraction .halfEven) = f.showDecimal d := by
  rw [showDecimal, Decimal.roundTo_of_le _ (Decimal.scale_roundTo_le ..)]
  rfl

theorem laidOut_showDecimal (hmin : f.minFraction ≤ f.maxFraction) {d : Decimal} {q : ℚ}
    (hd : d.Denotes q) :
    f.LaidOut (Extended.isNegative (d.roundTo f.maxFraction .halfEven)) (f.showDecimal d) := by
  obtain ⟨y, hy, -⟩ := (hd.roundTo f.maxFraction .halfEven).exists_eq
  have hscale := Decimal.scale_roundTo_le f.maxFraction .halfEven d
  rw [hy] at hscale
  rw [showDecimal_eq hy, hy]
  exact laidOut_showPositional hmin hscale

theorem parse_showInteger (f : NumberFormat) (n : Integer) :
    Integer.parse (f.showInteger n) = .ok n := by
  cases n with
  | finite n =>
    have hvalid : (f.padded (.ofInt n)).Valid := valid_padded (Positional.valid_ofInt n)
    have hwhole : f.shownWhole (.ofInt n) = Nat.toDigits 10 n.natAbs :=
      if_neg fun h => h.2.2 rfl
    have hne : (f.padded (.ofInt n)).whole ≠ [] := by
      intro hnil
      rw [padded, hwhole] at hnil
      exact Nat.toDigits_ne_nil (List.append_eq_nil_iff.1 hnil).2
    have hzeros : (f.padded (.ofInt n)).fraction.any (· ≠ '0') = false :=
      any_eq_false_iff.2 (by simp [padded, Positional.ofInt, List.rightpad])
    have hvalue : value (f.padded (.ofInt n)).whole = n.natAbs := by
      rw [padded, value_leftpad, hwhole]
      exact Nat.ofDigitChars_ten_toDigits
    rw [showInteger, showPositional_eq, Integer.parse_positional hvalid, if_neg, hvalue]
    · exact congrArg (fun n => Except.ok (Extended.finite n)) (Positional.signed_natAbs n)
    · rintro (h | h)
      · exact hne h
      · rw [hzeros] at h
        cases h
  | nan => exact Integer.parse_render .nan
  | infinity => exact Integer.parse_render .infinity
  | negInfinity => exact Integer.parse_render .negInfinity

theorem convertTo_integer_text [DateLibrary] {t : Text} {n : Integer} (ctx : Context)
    (h : Integer.parse t = .ok n) : ctx.convertTo .integer (.text t) = .ok (.integer n) := by
  have hne : t ≠ [] := by
    rintro rfl
    cases h
  have hgiven : Target.integer.given? (.text t) = none := by
    obtain ⟨c, t, rfl⟩ := List.exists_cons_of_ne_nil hne
    rfl
  have hparse (c : Config) : Target.integer.parse? c t = some n := by
    change (Integer.parse t).toOption = some n
    rw [h]
    rfl
  have hconvert : ctx.convert .integer (.text t) = .ok n := by
    change ctx.outer.convertWhole .integer (.text t) = _
    rw [Access.convertWhole_of_none hgiven]
    change Target.ofText .integer _ t = _
    rw [Target.ofText, hparse]
  rw [Context.convertTo, hconvert]
  rfl

/--
What is shown of a number by a pattern is read as the number itself, rounded to the most digits that
the pattern allows for, and is what is shown of that; it is laid out as the pattern asks. Numbers
that are the same are shown alike, and a whole number that is turned into text is turned back.
-/
theorem showNumber_faithful [DateLibrary] (h : parse pattern = .ok f) :
    (∀ x : Number,
      let r := x.toDecimal.roundTo f.maxFraction .halfEven
      let t := f.showNumber x
      Decimal.parse t = .ok r ∧ f.showNumber (.decimal r) = t ∧
      (x.isDefined = false → r = x.toDecimal) ∧
      (x.isDefined = true → f.LaidOut r.isNegative t ∧ ∃ q, x.value? = some q ∧
        r.Denotes (Rounding.halfEven.round (q * tenTo f.maxFraction) / tenTo f.maxFraction))) ∧
    (∀ x y : Number, x.same y = true → f.showNumber x = f.showNumber y) ∧
    ∀ (ctx : Context) (n : Integer), ctx.config.numberFormat = f →
      ∃ t, ctx.convertTo .text (.integer n) = .ok (.text t) ∧
        ctx.convertTo .integer (.text t) = .ok (.integer n) := by
  obtain ⟨hmin, hmax⟩ := bounds_of_parse h
  refine ⟨fun x => ?_, fun x y hxy => ?_, fun ctx n hf => ?_⟩
  · intro r t
    have ht : t = f.showDecimal x.toDecimal := showNumber_eq f x
    rw [ht]
    have hstate : x.toDecimal.state = x.state := Number.state_toDecimal x
    refine ⟨parse_showDecimal (hmin.trans hmax) _, showDecimal_roundTo f _, fun hx => ?_,
      fun hx => ?_⟩
    · refine Decimal.roundTo_of_le _ ?_
      cases hd : x.toDecimal with
      | finite y =>
        rw [hd] at hstate
        rw [Number.isDefined, ← hstate] at hx
        cases hx
      | _ => exact Nat.zero_le _
    · rw [← Number.isSome_value?, Option.isSome_iff_exists] at hx
      obtain ⟨q, hq⟩ := hx
      have hdenotes : x.toDecimal.Denotes q := (Number.value?_toDecimal x).trans hq
      exact ⟨laidOut_showDecimal hmin hdenotes, q, hq, hdenotes.roundTo _ _⟩
  · rw [showNumber_eq, showNumber_eq, (Number.same_iff x y).1 hxy]
  · refine ⟨f.showInteger n, ?_, convertTo_integer_text ctx (parse_showInteger f n)⟩
    rw [← hf]
    rfl

theorem showNumber_faithful_eighth :
    let f : NumberFormat := ⟨0, 2, 2, "#.00".toList⟩
    let x : Number := .decimal (.finite ⟨-125, 3, by decide, .inr (by decide)⟩)
    let r : Decimal := .finite ⟨-12, 2, by decide, .inr (by decide)⟩
    let ctx := Context.ofConfig { Config.standard with numberFormat := f }
    parse "#.00".toList = .ok f ∧ x.isDefined = true ∧ f.showNumber x = "-.12".toList ∧
      Decimal.parse (f.showNumber x) = .ok r ∧ f.showNumber (.decimal r) = f.showNumber x ∧
      f.LaidOut true (f.showNumber x) ∧
      Decimal.roundTo f.maxFraction .halfEven (Number.integer .nan).toDecimal = .nan ∧
      f.showNumber (.integer (.finite 5)) = f.showNumber (.decimal (.finite (.ofInt 5))) ∧
      ∃ t, ctx.convertTo .text (.integer (.finite (-7))) = .ok (.text t) ∧
        ctx.convertTo .integer (.text t) = .ok (.integer (.finite (-7))) := by
  intro f x r ctx
  have hf : parse "#.00".toList = .ok f := by decide
  obtain ⟨hshown, hsame, hconvert⟩ := showNumber_faithful hf
  obtain ⟨hparse, hagain, -, hdefined⟩ := hshown x
  obtain ⟨hlaid, -⟩ := hdefined rfl
  have hround : x.toDecimal.roundTo f.maxFraction .halfEven = r := by decide
  rw [hround] at hparse hagain hlaid
  exact ⟨hf, rfl, by decide, hparse, hagain, hlaid, (hshown (.integer .nan)).2.2.1 rfl,
    hsame _ _ (by decide), hconvert ctx (.finite (-7)) rfl⟩

end NumberFormat

end ScriptValue
