import ScriptValue.Number.Literal
import ScriptValue.Proofs.Number.Same
import Mathlib.Data.List.DropRight
import Mathlib.Data.List.TakeWhile

namespace ScriptValue

theorem Text.trim_eq_self {t : Text} (h : ∀ c ∈ t, isWhiteSpace c = false) : t.trim = t := by
  have hfront : t.dropWhile isWhiteSpace = t :=
    List.dropWhile_eq_self_iff.2 fun hne => by simp [h _ (List.getElem_mem hne)]
  rw [trim, trimBy, hfront]
  exact List.rdropWhile_eq_self_iff.2 fun hne => by simp [h _ (List.getLast_mem hne)]

namespace Positional

inductive Part : Char → Prop
  | digit {c} (h : c.isDigit = true) : Part c
  | minus : Part '-'
  | point : Part '.'

theorem Part.isWhiteSpace_eq {c : Char} (h : Part c) : isWhiteSpace c = false := by
  cases h with
  | digit h =>
    obtain ⟨hlow, hhigh⟩ : 48 ≤ c.toNat ∧ c.toNat ≤ 57 := Char.isDigit_iff_toNat.1 h
    simp [isWhiteSpace]
    omega
  | minus => rfl
  | point => rfl

theorem Part.toLower_eq {c : Char} (h : Part c) : c.toLower = c := by
  cases h with
  | digit h =>
    obtain ⟨-, hhigh⟩ : 48 ≤ c.toNat ∧ c.toNat ≤ 57 := Char.isDigit_iff_toNat.1 h
    refine dif_neg fun hupper => ?_
    have hlow : 65 ≤ c.toNat := UInt32.le_iff_toNat_le.1 hupper.1
    omega
  | minus => rfl
  | point => rfl

theorem Part.toLower_ne {c : Char} (h : Part c) : c.toLower ≠ 'n' := by
  rw [h.toLower_eq]
  rintro rfl
  obtain h | _ | _ := h
  exact absurd h (by decide)

structure Valid (p : Positional) : Prop where
  isDigit_whole : ∀ c ∈ p.whole, c.isDigit = true
  isDigit_fraction : ∀ c ∈ p.fraction, c.isDigit = true
  ne_nil : ¬(p.whole = [] ∧ p.fraction = [])

def afterWhole (fraction : Text) : Text := if fraction = [] then [] else '.' :: fraction

theorem afterWhole_eq_nil_iff {fraction : Text} : afterWhole fraction = [] ↔ fraction = [] := by
  unfold afterWhole
  split
  case isTrue h => exact iff_of_true rfl h
  case isFalse h => exact iff_of_false nofun h

theorem head?_afterWhole {fraction : Text} : ∀ c ∈ (afterWhole fraction).head?, c = '.' := by
  unfold afterWhole
  split
  · nofun
  · rintro c ⟨⟩
    rfl

theorem head?_digits {whole : Text} (h : ∀ c ∈ whole, c.isDigit = true) (fraction : Text) :
    ∀ c ∈ (whole ++ afterWhole fraction).head?, c.isDigit = true ∨ c = '.' := by
  intro c hc
  cases whole with
  | nil => exact .inr (head?_afterWhole c hc)
  | cons d whole =>
    obtain rfl : d = c := Option.some.inj hc
    exact .inl (h d List.mem_cons_self)

variable {p : Positional}

theorem render_eq (p : Positional) :
    p.render = (if p.negative then ['-'] else []) ++ p.whole ++ afterWhole p.fraction := rfl

theorem Valid.render_ne_nil (h : p.Valid) : p.render ≠ [] := by
  intro hnil
  rw [render_eq, List.append_eq_nil_iff, List.append_eq_nil_iff, afterWhole_eq_nil_iff] at hnil
  exact h.ne_nil ⟨hnil.1.2, hnil.2⟩

theorem Valid.part_of_mem (h : p.Valid) {c : Char} (hc : c ∈ p.render) : Part c := by
  simp only [render_eq, afterWhole, List.mem_append] at hc
  rcases hc with (hc | hc) | hc
  · split at hc
    · rw [List.mem_singleton.1 hc]
      exact .minus
    · cases hc
  · exact .digit (h.isDigit_whole c hc)
  · split at hc
    · cases hc
    · rcases List.mem_cons.1 hc with rfl | hc
      · exact .point
      · exact .digit (h.isDigit_fraction c hc)

theorem Valid.trim_render (h : p.Valid) : p.render.trim = p.render :=
  Text.trim_eq_self fun _ hc => (h.part_of_mem hc).isWhiteSpace_eq

end Positional

namespace Literal

open Positional

variable {p : Positional}

theorem undefined?_eq_none {t : Text} (h : ∀ c ∈ t, c.toLower ≠ 'n') : undefined? t = none := by
-- all words for undefined numbers have an n in them
  have hword (name : String) (hname : 'n' ∈ name.toList) : t.isWord name = false := by
    refine beq_eq_false_iff_ne.2 fun heq => ?_
    rw [← heq, Text.asciiLower, List.mem_map] at hname
    obtain ⟨c, hc, hlower⟩ := hname
    exact h c hc hlower
  simp [undefined?, hword "nan" (by decide), hword "infinity" (by decide),
    hword "+infinity" (by decide), hword "-infinity" (by decide)]

theorem takeSign_of_head? {t : Text} (h : ∀ c ∈ t.head?, c ≠ '-' ∧ c ≠ '+') :
    takeSign t = (false, t) := by
  unfold takeSign
  split
  · exact absurd rfl (h '-' rfl).1
  · exact absurd rfl (h '+' rfl).2
  · rfl

theorem takeDigits_append {t rest : Text} (ht : ∀ c ∈ t, c.isDigit = true)
    (hrest : ∀ c ∈ rest.head?, c.isDigit = false) : takeDigits (t ++ rest) = (t, rest) := by
  have htake : rest.takeWhile Char.isDigit = [] ∧ rest.dropWhile Char.isDigit = rest := by
    cases rest with
    | nil => exact ⟨rfl, rfl⟩
    | cons c rest => simp [hrest c rfl]
  rw [takeDigits, List.takeWhile_append_of_pos ht, List.dropWhile_append_of_pos ht, htake.1,
    htake.2, List.append_nil]

theorem takeFraction_afterWhole {fraction : Text} (h : ∀ c ∈ fraction, c.isDigit = true) :
    takeFraction (afterWhole fraction) = (fraction, []) := by
  unfold afterWhole
  split
  case isTrue hnil =>
    rw [hnil]
    rfl
  case isFalse =>
    have hdigits : takeDigits (fraction ++ []) = (fraction, []) := takeDigits_append h nofun
    rwa [List.append_nil] at hdigits

theorem takeSign_render (h : p.Valid) :
    takeSign p.render = (p.negative, p.whole ++ afterWhole p.fraction) := by
  rw [render_eq, List.append_assoc]
  cases p.negative with
  | true => rfl
  | false =>
    refine takeSign_of_head? fun c hc => ?_
    rcases head?_digits h.isDigit_whole p.fraction c hc with hdigit | rfl
    · constructor <;> (rintro rfl; exact absurd hdigit (by decide))
    · decide

theorem read_render (h : p.Valid) :
    read p.render = .ok (.digits p.negative p.whole p.fraction 0) := by
  have hdigits : takeDigits (p.whole ++ afterWhole p.fraction) = (p.whole, afterWhole p.fraction) :=
    takeDigits_append h.isDigit_whole fun c hc => by rw [head?_afterWhole c hc]; rfl
  rw [read, h.trim_render, readTrimmed, if_neg h.render_ne_nil,
    undefined?_eq_none fun _ hc => (h.part_of_mem hc).toLower_ne]
  dsimp only
  rw [takeSign_render h]
  dsimp only
  rw [hdigits]
  dsimp only
  rw [takeFraction_afterWhole h.isDigit_fraction]
  dsimp only
  rw [if_neg h.ne_nil]
  rfl

end Literal

namespace Integer

theorem parse_positional {p : Positional} (h : p.Valid) :
    parse p.render =
      if p.whole = [] ∨ p.fraction.any (· ≠ '0') then .error (.notWhole p.render)
      else .ok (.finite (signed p.negative (Literal.value p.whole))) := by
  rw [parse, Literal.read_render h]
  simp [h.trim_render]

end Integer

namespace Decimal

theorem parse_positional {p : Positional} (h : p.Valid) (hscale : p.fraction.length ≤ maxScale) :
    parse p.render =
      .ok (ofScaled (signed p.negative (Literal.value (p.whole ++ p.fraction)))
        p.fraction.length) := by
  have hle : ¬((maxScale : Int) < p.fraction.length - 0 ∨
      (maxScale : Int) < -(p.fraction.length - 0)) := by omega
  rw [parse, Literal.read_render h]
  dsimp only
  rw [if_neg hle]
  simp

end Decimal

namespace Positional

theorem signed_natAbs (n : Int) : signed (decide (n < 0)) n.natAbs = n := by
  by_cases h : n < 0
  · rw [decide_eq_true h, signed, if_pos rfl]
    omega
  · rw [decide_eq_false h, signed, if_neg Bool.false_ne_true]
    omega

theorem valid_ofInt (n : Int) : (ofInt n).Valid :=
  ⟨fun _ => Nat.isDigit_of_mem_toDigits (by decide) (by decide), List.forall_mem_nil _,
    fun h => Nat.toDigits_ne_nil h.1⟩

theorem render_ofInt (n : Int) : (ofInt n).render = Integer.render (.finite n) := by
  simp [render_eq, ofInt, afterWhole, Integer.render]

def digits (x : Scaled) : Text := (Nat.toDigits 10 x.unscaled.natAbs).leftpad (x.scale + 1) '0'

variable (x : Scaled)

theorem isDigit_digits : ∀ c ∈ digits x, c.isDigit = true := by
  intro c hc
  rw [digits, List.leftpad, List.mem_append, List.mem_replicate] at hc
  rcases hc with ⟨-, rfl⟩ | hc
  · rfl
  · exact Nat.isDigit_of_mem_toDigits (by decide) (by decide) hc

theorem scale_lt_length_digits : x.scale < (digits x).length := by
  rw [digits, List.length_leftpad]
  omega

theorem value_digits : Literal.value (digits x) = x.unscaled.natAbs := by
  rw [Literal.value, digits, List.leftpad, Nat.ofDigitChars_append, Nat.ofDigitChars_replicate_zero,
    Nat.mul_zero, Nat.ofDigitChars_ten_toDigits]

theorem ofScaled_eq : ofScaled x = ⟨decide (x.unscaled < 0),
    (digits x).take ((digits x).length - x.scale),
    (digits x).drop ((digits x).length - x.scale)⟩ := rfl

theorem length_fraction : (ofScaled x).fraction.length = x.scale := by
  have hlt := scale_lt_length_digits x
  simp [ofScaled_eq]
  omega

theorem whole_append_fraction : (ofScaled x).whole ++ (ofScaled x).fraction = digits x :=
  List.take_append_drop _ _

theorem whole_ne_nil : (ofScaled x).whole ≠ [] := by
  have hlt := scale_lt_length_digits x
  rw [← List.length_pos_iff]
  simp [ofScaled_eq]
  omega

theorem valid_ofScaled : (ofScaled x).Valid :=
  ⟨fun c hc => isDigit_digits x c (List.mem_of_mem_take hc),
    fun c hc => isDigit_digits x c (List.mem_of_mem_drop hc), fun h => whole_ne_nil x h.1⟩

theorem fraction_eq_nil_iff : (ofScaled x).fraction = [] ↔ x.scale = 0 := by
  rw [← length_fraction x, List.length_eq_zero_iff]

theorem any_fraction_iff : (ofScaled x).fraction.any (· ≠ '0') = true ↔ x.scale ≠ 0 := by
  constructor
  · rintro hany hscale
    rw [(fraction_eq_nil_iff x).2 hscale] at hany
    cases hany
  · intro hscale
    refine Decidable.byContradiction fun hany => ?_
-- a fraction of nothing but zeros would not be in lowest terms
    have hzeros : (ofScaled x).fraction = List.replicate x.scale '0' := by
      rw [List.eq_replicate_iff]
      exact ⟨length_fraction x, by simpa using hany⟩
    have hvalue := value_digits x
    rw [← whole_append_fraction, hzeros, Literal.value, Nat.ofDigitChars_append,
      Nat.ofDigitChars_replicate_zero] at hvalue
    obtain ⟨n, hn⟩ := Nat.exists_eq_succ_of_ne_zero hscale
    rw [hn, Nat.pow_succ, Nat.mul_right_comm] at hvalue
    have hmod : x.unscaled % 10 = 0 := by omega
    exact x.reduced.elim hscale fun hne => hne hmod

theorem signed_digits : signed (ofScaled x).negative (Literal.value (digits x)) = x.unscaled := by
  rw [value_digits]
  exact signed_natAbs x.unscaled

end Positional

open Positional

theorem Scaled.strip_self {u : Int} {s : Nat} (h : s = 0 ∨ u % 10 ≠ 0) : strip u s = (u, s) := by
  cases s with
  | zero => rfl
  | succ s => rw [strip, if_neg (h.resolve_left (Nat.succ_ne_zero s))]

theorem Decimal.ofScaled_self (x : Scaled) : ofScaled x.unscaled x.scale = .finite x := by
  rw [ofScaled, dif_pos x.scale_le, Scaled.reduce]
  congr 1
  split
  case isTrue hzero =>
    obtain ⟨u, s, hle, hreduced⟩ := x
    cases hzero
    cases hreduced.resolve_right fun h => h rfl
    rfl
  case isFalse =>
    obtain ⟨u, s, hle, hreduced⟩ := x
    simp [Scaled.strip_self hreduced]

theorem Integer.parse_render (x : Integer) : parse x.render = .ok x := by
  cases x with
  | finite n =>
    rw [← render_ofInt, parse_positional (valid_ofInt n), if_neg]
    · exact congrArg (fun n => Except.ok (Extended.finite n))
        ((congrArg _ Nat.ofDigitChars_ten_toDigits).trans (signed_natAbs n))
    · rintro (h | h)
      · exact Nat.toDigits_ne_nil h
      · cases h
  | _ => rfl

theorem Decimal.parse_render (d : Decimal) : parse d.render = .ok d := by
  cases d with
  | finite x =>
    have hscale : (Positional.ofScaled x).fraction.length ≤ maxScale :=
      length_fraction x ▸ x.scale_le
    change parse (Positional.ofScaled x).render = _
    rw [parse_positional (valid_ofScaled x) hscale, whole_append_fraction, signed_digits,
      length_fraction, ofScaled_self]
  | _ => rfl

theorem Integer.parse_decimal (x : Scaled) :
    parse (Decimal.render (.finite x)) =
      if x.scale = 0 then .ok (.finite x.unscaled)
      else .error (.notWhole (Decimal.render (.finite x))) := by
  change parse (Positional.ofScaled x).render = _
  rw [parse_positional (valid_ofScaled x)]
  by_cases hscale : x.scale = 0
  · have hfraction := (fraction_eq_nil_iff x).2 hscale
    have hwhole : (Positional.ofScaled x).whole = digits x := by
      rw [← whole_append_fraction, hfraction, List.append_nil]
    rw [if_pos hscale, if_neg, hwhole, signed_digits]
    rintro (h | h)
    · exact whole_ne_nil x h
    · exact (any_fraction_iff x).1 h hscale
  · rw [if_neg hscale, if_pos (.inr ((any_fraction_iff x).2 hscale))]
    rfl

namespace Number

theorem parse_render_integer (n : Integer) : parse (integer n).render = .ok (integer n) := by
  rw [parse, render, Integer.parse_render]

theorem parse_render_decimal (d : Decimal) :
    parse (decimal d).render =
      .ok (if d.isIntegral = true ∨ d.state.isDefined = false then integer d.toInteger
        else decimal d) := by
  cases d with
  | finite x =>
    rw [parse, render, Integer.parse_decimal]
    by_cases hscale : x.scale = 0
    · have hwhole : Decimal.toInteger (.finite x) = .finite x.unscaled := by
        rw [Decimal.toInteger, hscale, tenTo_zero, Int.natCast_one, Int.tdiv_one]
      rw [if_pos hscale, if_pos (.inl (decide_eq_true hscale)), hwhole]
    · have hfraction : ¬(Decimal.isIntegral (.finite x) = true ∨
          (Extended.finite x).state.isDefined = false) := by
        rintro (h | h)
        · exact hscale (of_decide_eq_true h)
        · cases h
      rw [if_neg hscale, if_neg hfraction]
      dsimp only
      rw [Decimal.parse_render]
      rfl
  | _ => rfl

theorem same_toInteger {d : Decimal} (h : d.isIntegral = true ∨ d.state.isDefined = false) :
    (integer d.toInteger).same (decimal d) = true := by
  rw [same_iff]
  cases h with
  | inl h => exact Decimal.ofInteger_toInteger h
  | inr h =>
    cases d with
    | finite => cases h
    | _ => rfl

/--
What is written of a whole number or of a decimal reads as the number itself. What is written of a
number of either kind reads as one that is the same, and as a whole number exactly if the number is
one, has no fraction or is undefined.
-/
theorem parse_written :
    (∀ x : Integer, Integer.parse x.render = .ok x) ∧
    (∀ d : Decimal, Decimal.parse d.render = .ok d) ∧
    ∀ n : Number, ∃ m, parse n.render = .ok m ∧ m.same n = true ∧
      ((∃ k, m = integer k) ↔
        (∃ k, n = integer k) ∨ (∃ d : Decimal, n = decimal d ∧ d.isIntegral = true) ∨
          n.isDefined = false) := by
  refine ⟨Integer.parse_render, Decimal.parse_render, fun n => ?_⟩
  cases n with
  | integer k =>
    exact ⟨integer k, parse_render_integer k, (same_iff _ _).2 rfl,
      iff_of_true ⟨k, rfl⟩ (.inl ⟨k, rfl⟩)⟩
  | decimal d =>
    refine ⟨_, parse_render_decimal d, ?_, ?_⟩
    · split
      case isTrue h => exact same_toInteger h
      case isFalse => exact (same_iff _ _).2 rfl
    · split
      case isTrue h => exact iff_of_true ⟨_, rfl⟩ (.inr (h.imp_left fun h => ⟨d, rfl, h⟩))
      case isFalse h =>
        refine iff_of_false nofun ?_
        rintro (⟨k, ⟨⟩⟩ | ⟨_, ⟨⟩, hd⟩ | hd)
        · exact h (.inl hd)
        · exact h (.inr hd)

end Number

end ScriptValue
