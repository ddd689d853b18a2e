import ScriptValue.Proofs.Number.Reading

namespace ScriptValue

namespace Literal

/-- A whole number in writing, `[+-]? D+ (. 0*)?`, and its value. -/
inductive WholeNumeral : Int → Text → Prop
  | digits {n s w} (hs : Sign n s) (hne : w ≠ []) (hw : Digits w) :
    WholeNumeral (signed n (value w)) (s ++ w)
  | zeros {n s w} (hs : Sign n s) (hne : w ≠ []) (hw : Digits w) (k : Nat) :
    WholeNumeral (signed n (value w)) (s ++ (w ++ '.' :: List.replicate k '0'))

variable {t u x w f : Text} {n : Bool} {m : Int}

theorem WholeNumeral.exists_numeral (hu : WholeNumeral m u) (hx : Exponent 0 x) :
    ∃ n w f, Numeral (u ++ x) n w f 0 ∧ w ≠ [] ∧ f.any (· ≠ '0') = false ∧
      m = signed n (value w) := by
  cases hu with
  | digits hs hne hw =>
    refine ⟨_, _, [], ?_, hne, rfl, rfl⟩
    rw [List.append_assoc]
    exact .intro hs (.whole hne hw) hx
  | zeros hs hne hw k =>
    have hzeros : (List.replicate k '0').any (· ≠ '0') = false :=
      any_eq_false_iff.2 (by rw [List.length_replicate])
    refine ⟨_, _, List.replicate k '0', ?_, hne, hzeros, rfl⟩
    rw [List.append_assoc]
    exact .intro hs (.point hne hw (digits_replicate k)) hx

theorem Numeral.exists_wholeNumeral (h : Numeral t n w f 0) (hne : w ≠ [])
    (hf : f.any (· ≠ '0') = false) :
    ∃ u x, t = u ++ x ∧ WholeNumeral (signed n (value w)) u ∧ Exponent 0 x := by
  obtain @⟨n, s, w, f, p, e, x, hs, hp, hx⟩ := h
  cases hp with
  | whole _ hw => exact ⟨s ++ w, x, (List.append_assoc ..).symm, .digits hs hne hw, hx⟩
  | point _ hw hzeros =>
    rw [any_eq_false_iff.1 hf]
    exact ⟨_, x, (List.append_assoc ..).symm, .zeros hs hne hw _, hx⟩
  | fraction => exact absurd rfl hne

theorem WholeNumeral.ne_mark (hu : WholeNumeral m u) : ∀ c ∈ u, c ≠ 'e' ∧ c ≠ 'E' := by
  have hsign {n s} (hs : Sign n s) : ∀ c ∈ s, c ≠ 'e' ∧ c ≠ 'E' := by
    cases hs with
    | none => exact List.forall_mem_nil _
    | plus => exact List.forall_mem_singleton.2 (by decide)
    | minus => exact List.forall_mem_singleton.2 (by decide)
  have hdigits {d} (hd : Digits d) : ∀ c ∈ d, c ≠ 'e' ∧ c ≠ 'E' := by
    intro c hc
    constructor <;> (rintro rfl; exact absurd (hd _ hc) (by decide))
  cases hu with
  | digits hs hne hw => exact List.forall_mem_append.2 ⟨hsign hs, hdigits hw⟩
  | zeros hs hne hw k =>
    refine List.forall_mem_append.2 ⟨hsign hs, List.forall_mem_append.2 ⟨hdigits hw, ?_⟩⟩
    exact List.forall_mem_cons.2 ⟨by decide, hdigits (digits_replicate k)⟩

theorem WholeNumeral.not_append {e : Int} (ht : WholeNumeral m (u ++ x)) (hx : Exponent e x) :
    x = [] := by
  cases hx with
  | none => rfl
  | some hmark =>
    obtain ⟨he, hE⟩ := ht.ne_mark _ (List.mem_append_right u List.mem_cons_self)
    exact absurd hmark (not_or.2 ⟨he, hE⟩)

end Literal

open Literal

namespace Integer

variable {t : Text}

theorem parse_of_wholeNumeral {m : Int} {u x : Text} (ht : t.trim = u ++ x)
    (hu : WholeNumeral m u) (hx : Exponent 0 x) : parse t = .ok (.finite m) := by
  obtain ⟨n, w, f, h, hne, hf, rfl⟩ := hu.exists_numeral hx
  rw [← ht] at h
  refine (parse_eq h (Nat.zero_le _)).trans (if_neg ?_)
  rw [hf]
  rintro (h | h | h)
  · exact h rfl
  · exact hne h
  · cases h

theorem parse_numeral_cases {n : Bool} {w f : Text} {e : Int} (h : Numeral t.trim n w f e)
    (he : e.natAbs ≤ 10000) :
    parse t = .error (.notWhole t.trim) ∨
      ∃ m u x, t.trim = u ++ x ∧ WholeNumeral m u ∧ Exponent 0 x ∧ parse t = .ok (.finite m) := by
  obtain hparse | ⟨rfl, hne, hf, hparse⟩ := parse_eq_notWhole_or h he
  · exact .inl hparse
  · obtain ⟨u, x, ht, hu, hx⟩ := h.exists_wholeNumeral hne hf
    exact .inr ⟨_, u, x, ht, hu, hx, hparse⟩

theorem parse_eq_ok_iff (k : Integer) :
    parse t = .ok k ↔ (∃ s, Names t.trim s ∧ k = .ofState s) ∨
      ∃ m u x, t.trim = u ++ x ∧ WholeNumeral m u ∧ Exponent 0 x ∧ k = .finite m := by
  constructor
  · intro hk
    cases hread : Literal.read t with
    | error x => cases (parse_error hread).symm.trans hk
    | ok l =>
      obtain ⟨s, rfl, h⟩ | ⟨n, w, f, e, rfl, h, he⟩ := exists_of_read_eq_ok hread
      · exact .inl ⟨s, h, (Except.ok.inj ((parse_undefined hread).symm.trans hk)).symm⟩
      · obtain hparse | ⟨m, u, x, ht, hu, hx, hparse⟩ := parse_numeral_cases h he
        · cases hparse.symm.trans hk
        · exact .inr ⟨m, u, x, ht, hu, hx, (Except.ok.inj (hparse.symm.trans hk)).symm⟩
  · rintro (⟨s, h, rfl⟩ | ⟨m, u, x, ht, hu, hx, rfl⟩)
    · exact parse_undefined (read_eq_iff.2 (.word h))
    · exact parse_of_wholeNumeral ht hu hx

theorem parse_eq_notWhole_iff :
    parse t = .error (.notWhole t.trim) ↔
      (∃ n w f e, Numeral t.trim n w f e ∧ e.natAbs ≤ 10000) ∧
        ¬∃ m u x, t.trim = u ++ x ∧ WholeNumeral m u ∧ Exponent 0 x := by
  constructor
  · intro hk
    refine ⟨?_, ?_⟩
    · cases hread : Literal.read t with
      | error x =>
        cases read_eq_iff.1 hread <;> cases (parse_error hread).symm.trans hk
      | ok l =>
        obtain ⟨s, rfl, -⟩ | ⟨n, w, f, e, rfl, h, he⟩ := exists_of_read_eq_ok hread
        · cases (parse_undefined hread).symm.trans hk
        · exact ⟨n, w, f, e, h, he⟩
    · rintro ⟨m, u, x, ht, hu, hx⟩
      cases (parse_of_wholeNumeral ht hu hx).symm.trans hk
  · rintro ⟨⟨n, w, f, e, h, he⟩, hwhole⟩
    refine (parse_numeral_cases h he).resolve_right ?_
    rintro ⟨m, u, x, ht, hu, hx, -⟩
    exact hwhole ⟨m, u, x, ht, hu, hx⟩

theorem parse_eq_outOfRange_iff :
    parse t = .error (.exponentOutOfRange t.trim) ↔
      ∃ n w f e, Numeral t.trim n w f e ∧ 10000 < e.natAbs := by
  rw [← outcome_outOfRange_iff, ← read_eq_iff]
  refine ⟨fun hk => ?_, parse_error⟩
  cases hread : Literal.read t with
  | error x => rw [Except.error.inj ((parse_error hread).symm.trans hk)]
  | ok l =>
    obtain ⟨s, rfl, -⟩ | ⟨n, w, f, e, rfl, h, he⟩ := exists_of_read_eq_ok hread
    · cases (parse_undefined hread).symm.trans hk
    · obtain hparse | ⟨-, -, -, hparse⟩ := parse_eq_notWhole_or h he <;>
        cases hparse.symm.trans hk

theorem form_decides_iff :
    ((∃ k, parse t = .ok k) ↔ (∃ s, Names t.trim s) ∨ ∃ m, WholeNumeral m t.trim) ↔
      ¬∃ m u x, t.trim = u ++ x ∧ WholeNumeral m u ∧ Exponent 0 x ∧ x ≠ [] := by
  constructor
  · rintro hform ⟨m, u, x, ht, hu, hx, hne⟩
    obtain ⟨s, hs⟩ | ⟨m', hm'⟩ := hform.1 ⟨_, parse_of_wholeNumeral ht hu hx⟩
    · obtain ⟨n, w, f, h, -⟩ := hu.exists_numeral hx
      exact h.not_names s (ht ▸ hs)
    · rw [ht] at hm'
      exact hne (hm'.not_append hx)
  · intro hzero
    constructor
    · rintro ⟨k, hk⟩
      obtain ⟨s, hs, -⟩ | ⟨m, u, x, ht, hu, hx, -⟩ := (parse_eq_ok_iff k).1 hk
      · exact .inl ⟨s, hs⟩
      · obtain rfl : x = [] := Decidable.byContradiction fun hne =>
          hzero ⟨m, u, x, ht, hu, hx, hne⟩
        rw [List.append_nil] at ht
        exact .inr ⟨m, ht ▸ hu⟩
    · rintro (⟨s, hs⟩ | ⟨m, hm⟩)
      · exact ⟨_, parse_undefined (read_eq_iff.2 (.word hs))⟩
      · exact ⟨_, parse_of_wholeNumeral (List.append_nil _).symm hm .none⟩

/--
The texts that are read as whole numbers are the words for undefined numbers and the whole numbers
in writing, also where an exponent of zero follows. Any other numeral is not whole, or out of range
if its exponent is too large. So the form of a whole number alone decides where no exponent of zero
is written, and nowhere else.
-/
theorem parse_iff_wholeNumeral (t : Text) :
    (∀ k, parse t = .ok k ↔ (∃ s, Names t.trim s ∧ k = .ofState s) ∨
      ∃ m u x, t.trim = u ++ x ∧ WholeNumeral m u ∧ Exponent 0 x ∧ k = .finite m) ∧
    (parse t = .error (.notWhole t.trim) ↔
      (∃ n w f e, Numeral t.trim n w f e ∧ e.natAbs ≤ 10000) ∧
        ¬∃ m u x, t.trim = u ++ x ∧ WholeNumeral m u ∧ Exponent 0 x) ∧
    (parse t = .error (.exponentOutOfRange t.trim) ↔
      ∃ n w f e, Numeral t.trim n w f e ∧ 10000 < e.natAbs) ∧
    (((∃ k, parse t = .ok k) ↔ (∃ s, Names t.trim s) ∨ ∃ m, WholeNumeral m t.trim) ↔
      ¬∃ m u x, t.trim = u ++ x ∧ WholeNumeral m u ∧ Exponent 0 x ∧ x ≠ []) :=
  ⟨parse_eq_ok_iff, parse_eq_notWhole_iff, parse_eq_outOfRange_iff, form_decides_iff⟩

theorem parse_zero_exponent :
    let t : Text := ['1', 'e', '0']
    parse t = .ok (.finite 1) ∧ parse t ≠ .error (.notWhole t.trim) ∧
      ¬((∃ k, parse t = .ok k) ↔ (∃ s, Names t.trim s) ∨ ∃ m, WholeNumeral m t.trim) := by
  intro t
  have hparse : parse t = .ok (.finite 1) := by decide
  refine ⟨hparse, by rw [hparse]; nofun, fun hform => form_decides_iff.1 hform ?_⟩
  have hone : WholeNumeral 1 ['1'] := .digits (w := ['1']) .none (by decide) (by decide)
  have hzero : Exponent 0 ['e', '0'] :=
    .some (d := ['0']) (.inl rfl) .none (by decide) (by decide)
  exact ⟨1, ['1'], ['e', '0'], rfl, hone, hzero, by decide⟩

end Integer

end ScriptValue
