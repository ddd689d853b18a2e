import ScriptValue.Proofs.Number.Arithmetic
import ScriptValue.Proofs.Number.Grammar

namespace ScriptValue

theorem Text.length_trim_le (t : Text) : t.trim.length ≤ t.length := by
  rw [trim, trimBy, trimEndBy, List.length_reverse]
  refine (List.length_dropWhile_le _ _).trans ?_
  rw [List.length_reverse]
  exact List.length_dropWhile_le _ _

theorem cast_tenTo (n : Nat) : (tenTo n : ℚ) = 10 ^ n := Nat.cast_pow 10 n

theorem cast_signed (negative : Bool) (n : Nat) :
    (signed negative n : ℚ) = (if negative then -1 else 1) * n := by
  cases negative with
  | true => simp [signed]
  | false => simp [signed]

namespace Literal

variable {t w f : Text} {negative : Bool} {e : Int}

def written (negative : Bool) (whole fraction : Text) (exponent : Int) : ℚ :=
  (if negative then -1 else 1) * (value whole + value fraction / 10 ^ fraction.length) *
    10 ^ exponent

theorem value_append (w f : Text) : value (w ++ f) = value w * tenTo f.length + value f := by
  rw [value, Nat.ofDigitChars_append, Nat.ofDigitChars_eq_ofDigitChars_zero, Nat.mul_comm]
  rfl

theorem value_replicate (k : Nat) : value (List.replicate k '0') = 0 := by
  rw [value, Nat.ofDigitChars_replicate_zero, Nat.mul_zero]

theorem cast_unscaled (negative : Bool) (w f : Text) (e : Int) :
    ((signed negative (value (w ++ f)) * tenTo (-(f.length - e)).toNat : Int) : ℚ) =
      written negative w f e * tenTo (f.length - e).toNat := by
  have hscale : ((f.length - e).toNat : Int) - (-(f.length - e)).toNat = f.length - e :=
    Int.toNat_sub_toNat_neg _
  have hpower : (10 : ℚ) ^ e * 10 ^ ((f.length - e).toNat : Int) =
      10 ^ (f.length : Int) * 10 ^ ((-(f.length - e)).toNat : Int) := by
    rw [← zpow_add₀ (by norm_num), ← zpow_add₀ (by norm_num)]
    congr 1
    omega
  rw [zpow_natCast, zpow_natCast, zpow_natCast] at hpower
  rw [written, value_append]
  push_cast
  rw [cast_signed, cast_tenTo, cast_tenTo]
  push_cast
  rw [cast_tenTo]
  field_simp
  linear_combination -(value w * 10 ^ f.length + value f : ℚ) * hpower

theorem Numeral.length_fraction_le (h : Numeral t negative w f e) : f.length ≤ t.length := by
  obtain ⟨hs, hm, hx⟩ := h
  cases hm with
  | whole => exact Nat.zero_le _
  | point => simp only [List.length_append, List.length_cons]; omega
  | fraction => simp only [List.length_append, List.length_cons]; omega

theorem any_eq_false_iff : f.any (· ≠ '0') = false ↔ f = List.replicate f.length '0' := by
  rw [List.eq_replicate_iff]
  simp

theorem written_of_zeros (negative : Bool) (w : Text) (hf : f.any (· ≠ '0') = false) :
    written negative w f 0 = signed negative (value w) := by
  have hvalue : value f = 0 := by rw [any_eq_false_iff.1 hf, value_replicate]
  rw [written, hvalue, cast_signed, zpow_zero]
  simp

end Literal

variable {t w f : Text} {negative : Bool} {e : Int}

section

variable {x : NumberError} {s : NumberState}

theorem Decimal.parse_error (h : Literal.read t = .error x) : parse t = .error x := by
  rw [parse, h]

theorem Decimal.parse_undefined (h : Literal.read t = .ok (.undefined s)) :
    parse t = .ok (.ofState s) := by
  rw [parse, h]

theorem Integer.parse_error (h : Literal.read t = .error x) : parse t = .error x := by
  rw [parse, h]

theorem Integer.parse_undefined (h : Literal.read t = .ok (.undefined s)) :
    parse t = .ok (.ofState s) := by
  rw [parse, h]

end

open Literal

theorem Literal.outcome_empty_iff : Outcome t (.error .empty) ↔ t = [] :=
  ⟨fun | .empty h => h, .empty⟩

theorem Literal.outcome_outOfRange_iff : Outcome t (.error (.exponentOutOfRange t)) ↔
    ∃ n w f e, Numeral t n w f e ∧ 10000 < e.natAbs :=
  ⟨fun | .outOfRange h he => ⟨_, _, _, _, h, he⟩, fun ⟨_, _, _, _, h, he⟩ => .outOfRange h he⟩

theorem Literal.outcome_invalid_iff : Outcome t (.error (.invalid t)) ↔
    t ≠ [] ∧ (¬∃ s, Names t s) ∧ ¬∃ n w f e, Numeral t n w f e :=
  ⟨fun | .invalid hne hword h => ⟨hne, hword, h⟩, fun ⟨hne, hword, h⟩ => .invalid hne hword h⟩

namespace Decimal

theorem exists_parse_eq (ht : t.length < 2 ^ 31) (h : Numeral t.trim negative w f e)
    (he : e.natAbs ≤ 10000) :
    ∃ d, parse t = .ok d ∧ d.Denotes (written negative w f e) := by
-- no text of this length has more digits than are kept
  have hlength : f.length < 2147483648 :=
    (h.length_fraction_le.trans t.length_trim_le).trans_lt ht
  have hscale : (f.length - e).toNat ≤ maxScale := by
    rw [maxScale]
    omega
  have hrange : ¬((maxScale : Int) < f.length - e ∨ (maxScale : Int) < -(f.length - e)) := by
    rw [maxScale]
    omega
  refine ⟨_, ?_, denotes_ofScaled hscale (Literal.cast_unscaled negative w f e)⟩
  rw [parse, read_eq_iff.2 (.numeral h he)]
  exact if_neg hrange

theorem parse_eq_ok_iff (ht : t.length < 2 ^ 31) (d : Decimal) :
    parse t = .ok d ↔ (∃ s, Names t.trim s ∧ d = .ofState s) ∨
      ∃ n w f e, Numeral t.trim n w f e ∧ e.natAbs ≤ 10000 ∧ d.Denotes (written n w f e) := by
  constructor
  · intro hd
    cases hread : Literal.read t with
    | error x => cases (parse_error hread).symm.trans hd
    | ok l =>
      obtain ⟨s, rfl, h⟩ | ⟨n, w, f, e, rfl, h, he⟩ := exists_of_read_eq_ok hread
      · exact .inl ⟨s, h, (Except.ok.inj ((parse_undefined hread).symm.trans hd)).symm⟩
      · obtain ⟨d', hd', hdenotes⟩ := exists_parse_eq ht h he
        cases hd'.symm.trans hd
        exact .inr ⟨n, w, f, e, h, he, hdenotes⟩
  · rintro (⟨s, h, rfl⟩ | ⟨n, w, f, e, h, he, hd⟩)
    · exact parse_undefined (read_eq_iff.2 (.word h))
    · obtain ⟨d', hd', hdenotes⟩ := exists_parse_eq ht h he
      rw [hd', hdenotes.eq hd]

theorem parse_eq_error_iff (ht : t.length < 2 ^ 31) {x : NumberError} :
    parse t = .error x ↔ Outcome t.trim (.error x) := by
  rw [← read_eq_iff]
  refine ⟨fun hx => ?_, parse_error⟩
  cases hread : Literal.read t with
  | error y => rw [Except.error.inj ((parse_error hread).symm.trans hx)]
  | ok l =>
    obtain ⟨s, rfl, -⟩ | ⟨n, w, f, e, rfl, h, he⟩ := exists_of_read_eq_ok hread
    · cases (parse_undefined hread).symm.trans hx
    · obtain ⟨d, hd, -⟩ := exists_parse_eq ht h he
      cases hd.symm.trans hx

end Decimal

namespace Integer

theorem parse_eq (h : Numeral t.trim negative w f e) (he : e.natAbs ≤ 10000) :
    parse t =
      if e ≠ 0 ∨ w = [] ∨ f.any (· ≠ '0') = true then .error (.notWhole t.trim)
      else .ok (.finite (signed negative (value w))) := by
  rw [parse, read_eq_iff.2 (.numeral h he)]

theorem parse_eq_notWhole_or (h : Numeral t.trim negative w f e) (he : e.natAbs ≤ 10000) :
    parse t = .error (.notWhole t.trim) ∨
      e = 0 ∧ w ≠ [] ∧ f.any (· ≠ '0') = false ∧
        parse t = .ok (.finite (signed negative (value w))) := by
  have hparse := parse_eq h he
  split at hparse
  case isTrue => exact .inl hparse
  case isFalse hwhole =>
    rw [not_or, not_or, not_not, Bool.not_eq_true] at hwhole
    exact .inr ⟨hwhole.1, hwhole.2.1, hwhole.2.2, hparse⟩

end Integer

namespace Number

theorem map_parse (ht : t.length < 2 ^ 31) : (parse t).map toDecimal = Decimal.parse t := by
  cases hread : Literal.read t with
  | error x =>
    rw [parse, Integer.parse_error hread, Decimal.parse_error hread]
    cases x <;> rfl
  | ok l =>
    obtain ⟨s, rfl, -⟩ | ⟨n, w, f, e, rfl, h, he⟩ := exists_of_read_eq_ok hread
    · rw [parse, Integer.parse_undefined hread, Decimal.parse_undefined hread]
      cases s <;> rfl
    · obtain hinteger | ⟨rfl, -, hf, hinteger⟩ := Integer.parse_eq_notWhole_or h he
      · rw [parse, hinteger]
        cases Decimal.parse t <;> rfl
      · obtain ⟨d, hd, hdenotes⟩ := Decimal.exists_parse_eq ht h he
        rw [written_of_zeros n w hf, ← Scaled.toRat_ofInt] at hdenotes
        have hwhole : d = .finite (.ofInt (signed n (value w))) :=
          hdenotes.eq (Decimal.denotes_finite _)
        rw [parse, hinteger, hd, hwhole]
        rfl

end Number

/--
The texts that are read as decimals are the words for undefined numbers and the numerals with an
exponent of at most ten thousand, which are read as what they write. A text of blanks alone is
empty, one whose exponent alone is too large is out of range, and all others are invalid. A number
is read where a decimal is, and as the same number, and else there is the same error.
-/
theorem Decimal.parse_iff_numeral (ht : t.length < 2 ^ 31) :
    (∀ d, parse t = .ok d ↔ (∃ s, Names t.trim s ∧ d = .ofState s) ∨
      ∃ n w f e, Numeral t.trim n w f e ∧ e.natAbs ≤ 10000 ∧ d.Denotes (written n w f e)) ∧
    ((∃ d, parse t = .ok d) ↔ (∃ s, Names t.trim s) ∨
      ∃ n w f e, Numeral t.trim n w f e ∧ e.natAbs ≤ 10000) ∧
    (parse t = .error .empty ↔ t.trim = []) ∧
    (parse t = .error (.exponentOutOfRange t.trim) ↔
      ∃ n w f e, Numeral t.trim n w f e ∧ 10000 < e.natAbs) ∧
    (parse t = .error (.invalid t.trim) ↔
      t.trim ≠ [] ∧ (¬∃ s, Names t.trim s) ∧ ¬∃ n w f e, Numeral t.trim n w f e) ∧
    (∀ x, Number.parse t = .error x ↔ parse t = .error x) ∧
    ∀ n, Number.parse t = .ok n → ∃ d, parse t = .ok d ∧ n.same (.decimal d) = true := by
  refine ⟨parse_eq_ok_iff ht, ⟨?_, ?_⟩, ?_, ?_, ?_, fun x => ?_, fun n hn => ?_⟩
  · rintro ⟨d, hd⟩
    refine ((parse_eq_ok_iff ht d).1 hd).imp ?_ ?_
    · exact fun ⟨s, h, _⟩ => ⟨s, h⟩
    · exact fun ⟨n, w, f, e, h, he, _⟩ => ⟨n, w, f, e, h, he⟩
  · rintro (⟨s, h⟩ | ⟨n, w, f, e, h, he⟩)
    · exact ⟨_, parse_undefined (read_eq_iff.2 (.word h))⟩
    · exact (exists_parse_eq ht h he).imp fun _ => And.left
  · rw [parse_eq_error_iff ht, outcome_empty_iff]
  · rw [parse_eq_error_iff ht, outcome_outOfRange_iff]
  · rw [parse_eq_error_iff ht, outcome_invalid_iff]
  · rw [← Number.map_parse ht]
    cases Number.parse t <;> simp [Except.map]
  · refine ⟨n.toDecimal, ?_, (Number.same_iff _ _).2 rfl⟩
    rw [← Number.map_parse ht, hn]
    rfl

theorem Decimal.parse_iff_numeral_fraction :
    let t : Text := " -1.50E-1".toList
    let d : Decimal := .finite ⟨-15, 2, by decide, .inr (by decide)⟩
    t.length < 2 ^ 31 ∧ Numeral t.trim true ['1'] ['5', '0'] (-1) ∧
      d.Denotes (written true ['1'] ['5', '0'] (-1)) ∧ parse t = .ok d ∧
      Number.parse t = .ok (.decimal d) ∧
      ∃ d', parse t = .ok d' ∧ (Number.decimal d).same (.decimal d') = true := by
  intro t d
  have ht : t.length < 2 ^ 31 := by decide
  have hmantissa : Mantissa ['1'] ['5', '0'] ['1', '.', '5', '0'] :=
    .point (w := ['1']) (by decide) (by decide) (by decide)
  have hexponent : Exponent (-1) ['E', '-', '1'] :=
    .some (d := ['1']) (.inr rfl) .minus (by decide) (by decide)
  have hnumeral : Numeral t.trim true ['1'] ['5', '0'] (-1) := .intro .minus hmantissa hexponent
  have hd : d.Denotes (written true ['1'] ['5', '0'] (-1)) := by
    have hone : value ['1'] = 1 := by decide
    have hfifty : value ['5', '0'] = 50 := by decide
    refine congrArg some ?_
    rw [written, hone, hfifty]
    norm_num [Scaled.toRat, tenTo]
  have hn : Number.parse t = .ok (.decimal d) := by decide
  obtain ⟨hok, -, -, -, -, -, hnumber⟩ := parse_iff_numeral ht
  exact ⟨ht, hnumeral, hd, (hok d).2 (.inr ⟨_, _, _, _, hnumeral, by decide, hd⟩), hn,
    hnumber _ hn⟩

end ScriptValue
