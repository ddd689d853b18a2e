import ScriptValue.Proofs.Number.Positional

/-!
The grammar of literals, `[+-]? (D+ (. D*)? | . D+) ([eE] [+-]? D+)?` with the digits of ASCII for
`D`, and the words for undefined numbers. A text of the form is read as what stands in its parts, if
its exponent is not too large; and no other text is read.
-/

namespace ScriptValue.Literal

inductive Sign : Bool → Text → Prop
  | none : Sign false []
  | plus : Sign false ['+']
  | minus : Sign true ['-']

def Digits (t : Text) : Prop := ∀ c ∈ t, c.isDigit = true

instance (t : Text) : Decidable (Digits t) :=
  decidable_of_iff (t.all Char.isDigit = true) List.all_eq_true

theorem digits_replicate (k : Nat) : Digits (List.replicate k '0') := by
  intro c hc
  rw [(List.mem_replicate.1 hc).2]
  rfl

inductive Mantissa : Text → Text → Text → Prop
  | whole {w} (hne : w ≠ []) (hw : Digits w) : Mantissa w [] w
  | point {w f} (hne : w ≠ []) (hw : Digits w) (hf : Digits f) : Mantissa w f (w ++ '.' :: f)
  | fraction {f} (hne : f ≠ []) (hf : Digits f) : Mantissa [] f ('.' :: f)

inductive Exponent : Int → Text → Prop
  | none : Exponent 0 []
  | some {mark negative s d} (hmark : mark = 'e' ∨ mark = 'E') (hs : Sign negative s)
    (hne : d ≠ []) (hd : Digits d) : Exponent (signed negative (value d)) (mark :: (s ++ d))

/-- A number in writing, with what stands in each of its parts. -/
inductive Numeral : Text → Bool → Text → Text → Int → Prop
  | intro {negative s w f m e x} (hs : Sign negative s) (hm : Mantissa w f m) (hx : Exponent e x) :
    Numeral (s ++ (m ++ x)) negative w f e

def words : NumberState → List String
  | .defined => []
  | .nan => ["nan"]
  | .infinity => ["infinity", "+infinity"]
  | .negInfinity => ["-infinity"]

def Names (t : Text) (s : NumberState) : Prop := ∃ w ∈ words s, t.isWord w = true

theorem undefined?_eq_some_iff {t : Text} {s : NumberState} :
    undefined? t = some s ↔ Names t s := by
  simp only [undefined?, Names, Text.isWord, Bool.or_eq_true, beq_iff_eq]
  generalize t.asciiLower = u
  split_ifs with hnan hinfinity hneg
  · subst hnan
    cases s <;> simp [words]
  · rcases hinfinity with rfl | rfl <;> cases s <;> simp [words]
  · subst hneg
    cases s <;> simp [words]
  · rw [not_or] at hinfinity
    cases s with
    | defined => simp [words]
    | nan => simpa [words] using hnan
    | infinity => simpa [words] using hinfinity
    | negInfinity => simpa [words] using hneg

variable {t rest : Text} {negative : Bool} {w f m x : Text} {e : Int}

def Stops (t : Text) : Prop := ∀ c ∈ t.head?, c.isDigit = false ∧ c ≠ '.'

theorem takeSign_append {s : Text} (hs : Sign negative s)
    (hrest : ∀ c ∈ rest.head?, c ≠ '-' ∧ c ≠ '+') : takeSign (s ++ rest) = (negative, rest) := by
  cases hs with
  | none => exact takeSign_of_head? hrest
  | plus => rfl
  | minus => rfl

theorem ne_sign_of_isDigit {c : Char} (h : c.isDigit = true) : c ≠ '-' ∧ c ≠ '+' := by
  constructor <;> (rintro rfl; exact absurd h (by decide))

theorem head?_append_of_digits {d : Text} (hne : d ≠ []) (hd : Digits d) :
    ∀ c ∈ (d ++ rest).head?, c.isDigit = true := by
  intro c hc
  obtain ⟨b, d, rfl⟩ := List.exists_cons_of_ne_nil hne
  obtain rfl : b = c := Option.some.inj hc
  exact hd b List.mem_cons_self

theorem takeFraction_point (hf : Digits f) (hrest : Stops rest) :
    takeFraction ('.' :: (f ++ rest)) = (f, rest) :=
  takeDigits_append hf fun c hc => (hrest c hc).1

theorem takeFraction_of_stops (hrest : Stops rest) : takeFraction rest = ([], rest) := by
  unfold takeFraction
  split
  · exact absurd rfl (hrest '.' rfl).2
  · rfl

theorem take_mantissa (hm : Mantissa w f m) (hrest : Stops rest) :
    (takeDigits (m ++ rest)).1 = w ∧ takeFraction (takeDigits (m ++ rest)).2 = (f, rest) := by
  cases hm with
  | whole hne hw =>
    rw [takeDigits_append hw fun c hc => (hrest c hc).1]
    exact ⟨rfl, takeFraction_of_stops hrest⟩
  | point hne hw hf =>
    rw [List.append_assoc, takeDigits_append hw (by rintro c ⟨⟩; rfl)]
    exact ⟨rfl, takeFraction_point hf hrest⟩
  | fraction hne hf => exact ⟨rfl, takeFraction_point hf hrest⟩

theorem Mantissa.ne_nil (hm : Mantissa w f m) : ¬(w = [] ∧ f = []) := by
  cases hm with
  | whole hne => exact fun h => hne h.1
  | point hne => exact fun h => hne h.1
  | fraction hne => exact fun h => hne h.2

theorem Mantissa.head?_ne_sign (hm : Mantissa w f m) (x : Text) :
    ∀ c ∈ (m ++ x).head?, c ≠ '-' ∧ c ≠ '+' := by
  cases hm with
  | whole hne hw => exact fun c hc => ne_sign_of_isDigit (head?_append_of_digits hne hw c hc)
  | point hne hw hf =>
    rw [List.append_assoc]
    exact fun c hc => ne_sign_of_isDigit (head?_append_of_digits hne hw c hc)
  | fraction hne hf =>
    rintro c ⟨⟩
    decide

theorem Exponent.stops (hx : Exponent e x) : Stops x := by
  cases hx with
  | none => nofun
  | some hmark hs hne hd =>
    rintro c ⟨⟩
    rcases hmark with rfl | rfl <;> decide

theorem natAbs_signed (negative : Bool) (n : Nat) : (signed negative n).natAbs = n := by
  cases negative with
  | true => exact (Int.natAbs_neg _).trans (Int.natAbs_natCast n)
  | false => rfl

theorem readExponent_eq (t : Text) (hx : Exponent e x) :
    readExponent t x =
      if maxExponent < e.natAbs then .error (.exponentOutOfRange t) else .ok e := by
  cases hx with
  | none => rfl
  | @some mark negative s d hmark hs hne hd =>
    have hletter : ¬(mark ≠ 'e' ∧ mark ≠ 'E') := by
      rintro ⟨he, hE⟩
      exact hmark.elim he hE
    have hdigits : ¬(d = [] ∨ (!d.all Char.isDigit) = true) := by
      rintro (h | h)
      · exact hne h
      · rw [Bool.not_eq_true', ← Bool.not_eq_true, List.all_eq_true] at h
        exact h hd
    have hsign : takeSign (s ++ d) = (negative, d) := by
      refine takeSign_append hs fun c hc => ne_sign_of_isDigit ?_
      rw [← List.append_nil d] at hc
      exact head?_append_of_digits hne hd c hc
    rw [readExponent, if_neg hletter, hsign]
    dsimp only
    rw [if_neg hdigits, natAbs_signed]
    rfl

theorem Numeral.ne_nil (h : Numeral t negative w f e) : t ≠ [] := by
  obtain ⟨hs, hm, hx⟩ := h
  cases hm with
  | whole hne => simp [hne]
  | point hne => simp [hne]
  | fraction => simp

theorem Numeral.toLower_ne (h : Numeral t negative w f e) : ∀ c ∈ t, c.toLower ≠ 'n' := by
  have hsign {negative s} (hs : Sign negative s) : ∀ c ∈ s, c.toLower ≠ 'n' := by
    cases hs with
    | none => exact List.forall_mem_nil _
    | plus => exact List.forall_mem_singleton.2 (by decide)
    | minus => exact List.forall_mem_singleton.2 (by decide)
  have hdigits {d} (hd : Digits d) : ∀ c ∈ d, c.toLower ≠ 'n' := by
    rintro c hc hn
    rw [(Positional.Part.digit (hd c hc)).toLower_eq] at hn
    exact absurd (hd c hc) (hn ▸ by decide)
  have hpoint : Char.toLower '.' ≠ 'n' := by decide
  obtain ⟨hs, hm, hx⟩ := h
  refine List.forall_mem_append.2 ⟨hsign hs, List.forall_mem_append.2 ⟨?_, ?_⟩⟩
  · cases hm with
    | whole hne hw => exact hdigits hw
    | point hne hw hf =>
      exact List.forall_mem_append.2 ⟨hdigits hw, List.forall_mem_cons.2 ⟨hpoint, hdigits hf⟩⟩
    | fraction hne hf => exact List.forall_mem_cons.2 ⟨hpoint, hdigits hf⟩
  · cases hx with
    | none => exact List.forall_mem_nil _
    | some hmark hs hne hd =>
      refine List.forall_mem_cons.2 ⟨?_, List.forall_mem_append.2 ⟨hsign hs, hdigits hd⟩⟩
      rcases hmark with rfl | rfl <;> decide

theorem Numeral.undefined?_eq (h : Numeral t negative w f e) : undefined? t = none :=
  undefined?_eq_none h.toLower_ne

theorem Numeral.not_names (h : Numeral t negative w f e) (s : NumberState) : ¬Names t s := by
  rw [← undefined?_eq_some_iff, h.undefined?_eq]
  nofun

theorem Numeral.readTrimmed_eq (h : Numeral t negative w f e) :
    readTrimmed t =
      if maxExponent < e.natAbs then .error (.exponentOutOfRange t)
      else .ok (.digits negative w f e) := by
  rw [readTrimmed, if_neg h.ne_nil, h.undefined?_eq]
  obtain @⟨negative, s, w, f, m, e, x, hs, hm, hx⟩ := h
  obtain ⟨hwhole, hfraction⟩ := take_mantissa hm hx.stops
  dsimp only
  rw [takeSign_append hs (hm.head?_ne_sign x)]
  dsimp only
  rw [hwhole, hfraction]
  dsimp only
  rw [if_neg hm.ne_nil, readExponent_eq _ hx]
  split <;> rfl

theorem exists_sign (t : Text) : ∃ s, Sign (takeSign t).1 s ∧ t = s ++ (takeSign t).2 := by
  unfold takeSign
  split
  · exact ⟨_, .minus, rfl⟩
  · exact ⟨_, .plus, rfl⟩
  · exact ⟨_, .none, rfl⟩

theorem digits_takeDigits (t : Text) :
    Digits (takeDigits t).1 ∧ t = (takeDigits t).1 ++ (takeDigits t).2 :=
  ⟨fun _ => List.mem_takeWhile_imp, List.takeWhile_append_dropWhile.symm⟩

theorem exists_mantissa (t : Text)
    (hne : ¬((takeDigits t).1 = [] ∧ (takeFraction (takeDigits t).2).1 = [])) :
    ∃ m, Mantissa (takeDigits t).1 (takeFraction (takeDigits t).2).1 m ∧
      t = m ++ (takeFraction (takeDigits t).2).2 := by
  obtain ⟨hw, ht⟩ := digits_takeDigits t
  revert hne hw ht
  generalize takeDigits t = p
  obtain ⟨w, rest⟩ := p
  dsimp only
  unfold takeFraction
  split
  case h_1 after =>
    obtain ⟨hf, hafter⟩ := digits_takeDigits after
    intro hne hw ht
    rw [hafter] at ht
    by_cases hnil : w = []
    · subst hnil
      exact ⟨_, .fraction (fun h => hne ⟨rfl, h⟩) hf, ht⟩
    · exact ⟨_, .point hnil hw hf, by rw [ht, List.append_assoc]; rfl⟩
  case h_2 =>
    intro hne hw ht
    exact ⟨w, .whole (fun h => hne ⟨h, rfl⟩) hw, ht⟩

theorem exists_exponent (t x : Text) :
    (∃ e, Exponent e x) ∨ readExponent t x = .error (.invalid t) := by
  cases x with
  | nil => exact .inl ⟨0, .none⟩
  | cons c rest =>
    rw [readExponent]
    split
    case isTrue => exact .inr rfl
    case isFalse hmark =>
      obtain ⟨s, hs, hrest⟩ := exists_sign rest
      revert hs hrest
      generalize takeSign rest = p
      obtain ⟨negative, body⟩ := p
      rintro hs rfl
      dsimp only
      split
      case isTrue => exact .inr rfl
      case isFalse hbody =>
        rw [not_or, Bool.not_eq_true', Bool.not_eq_false, List.all_eq_true] at hbody
        rw [← not_or, not_not] at hmark
        exact .inl ⟨_, .some hmark hs hbody.1 hbody.2⟩

theorem exists_numeral (hne : t ≠ []) (hword : undefined? t = none) :
    (∃ n w f e, Numeral t n w f e) ∨ readTrimmed t = .error (.invalid t) := by
  rw [readTrimmed, if_neg hne, hword]
  dsimp only
  obtain ⟨s, hs, ht⟩ := exists_sign t
  split
  case isTrue => exact .inr rfl
  case isFalse hdigits =>
    obtain ⟨m, hm, hrest⟩ := exists_mantissa (takeSign t).2 hdigits
    rcases exists_exponent t (takeFraction (takeDigits (takeSign t).2).2).2 with ⟨e, hx⟩ | hx
    · have hnumeral := Numeral.intro hs hm hx
      rw [← hrest, ← ht] at hnumeral
      exact .inl ⟨_, _, _, e, hnumeral⟩
    · rw [hx]
      exact .inr rfl

theorem Names.ne_nil {s : NumberState} (h : Names t s) : t ≠ [] := by
  rintro rfl
  cases undefined?_eq_some_iff.2 h

inductive Outcome (t : Text) : Except NumberError Literal → Prop
  | empty (h : t = []) : Outcome t (.error .empty)
  | word {s} (h : Names t s) : Outcome t (.ok (.undefined s))
  | numeral {n w f e} (h : Numeral t n w f e) (he : e.natAbs ≤ 10000) :
    Outcome t (.ok (.digits n w f e))
  | outOfRange {n w f e} (h : Numeral t n w f e) (he : 10000 < e.natAbs) :
    Outcome t (.error (.exponentOutOfRange t))
  | invalid (hne : t ≠ []) (hword : ¬∃ s, Names t s) (h : ¬∃ n w f e, Numeral t n w f e) :
    Outcome t (.error (.invalid t))

theorem outcome_readTrimmed (t : Text) : Outcome t (readTrimmed t) := by
  by_cases hne : t = []
  · rw [readTrimmed, if_pos hne]
    exact .empty hne
  cases hword : undefined? t with
  | some s =>
    rw [readTrimmed, if_neg hne, hword]
    exact .word (undefined?_eq_some_iff.1 hword)
  | none =>
    by_cases hnumeral : ∃ n w f e, Numeral t n w f e
    · obtain ⟨n, w, f, e, h⟩ := hnumeral
      rw [h.readTrimmed_eq]
      split
      case isTrue he => exact .outOfRange h he
      case isFalse he => exact .numeral h (Nat.not_lt.1 he)
    · rw [(exists_numeral hne hword).resolve_left hnumeral]
      refine .invalid hne ?_ hnumeral
      rintro ⟨s, hs⟩
      cases hword.symm.trans (undefined?_eq_some_iff.2 hs)

theorem read_eq_iff {r : Except NumberError Literal} : read t = r ↔ Outcome t.trim r := by
  constructor
  · rintro rfl
    exact outcome_readTrimmed t.trim
  · intro h
    rw [read]
    cases h with
    | empty h => rw [h]; rfl
    | word h => rw [readTrimmed, if_neg h.ne_nil, undefined?_eq_some_iff.2 h]
    | numeral h he => exact h.readTrimmed_eq.trans (if_neg (Nat.not_lt.2 he))
    | outOfRange h he => exact h.readTrimmed_eq.trans (if_pos he)
    | invalid hne hword h =>
      refine (exists_numeral hne ?_).resolve_left h
      rw [Option.eq_none_iff_forall_ne_some]
      exact fun s hs => hword ⟨s, undefined?_eq_some_iff.1 hs⟩

theorem exists_of_read_eq_ok {l : Literal} (hread : read t = .ok l) :
    (∃ s, l = .undefined s ∧ Names t.trim s) ∨
      ∃ n w f e, l = .digits n w f e ∧ Numeral t.trim n w f e ∧ e.natAbs ≤ 10000 := by
  cases read_eq_iff.1 hread with
  | word h => exact .inl ⟨_, rfl, h⟩
  | numeral h he => exact .inr ⟨_, _, _, _, rfl, h, he⟩

end ScriptValue.Literal
