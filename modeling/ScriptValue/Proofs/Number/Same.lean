import ScriptValue.Proofs.Number.Embedding

namespace ScriptValue

namespace Scaled

variable {x y : Scaled}

theorem eq_of_unscaledAt_eq (hscale : x.scale ≤ y.scale)
    (h : x.unscaledAt y.scale = y.unscaled) : x = y := by
  rw [unscaledAt] at h
  have heq : y.scale - x.scale = 0 := by
    cases y.reduced with
    | inl hzero => omega
    | inr hmod =>
      refine Decidable.byContradiction fun hne => ?_
      -- the digits of `y` would end in a zero
      obtain ⟨n, hn⟩ := Nat.exists_eq_succ_of_ne_zero hne
      rw [← h, hn, tenTo_succ, Int.natCast_mul, ← Int.mul_assoc] at hmod
      exact hmod (Int.mul_emod_left _ 10)
  rw [heq, tenTo_zero, Int.natCast_one, Int.mul_one] at h
  have hscale : x.scale = y.scale := by omega
  cases x
  cases y
  cases h
  cases hscale
  rfl

theorem unscaledAt_scale (x : Scaled) : x.unscaledAt x.scale = x.unscaled := by
  simp [unscaledAt]

theorem compare_eq_iff : compare x y = .eq ↔ x = y := by
  change Ord.compare _ _ = .eq ↔ _
  rw [Std.compare_eq_iff_eq]
  constructor
  · intro h
    cases Nat.le_total x.scale y.scale with
    | inl hle =>
      rw [Nat.max_eq_right hle, unscaledAt_scale] at h
      exact eq_of_unscaledAt_eq hle h
    | inr hle =>
      rw [Nat.max_eq_left hle, unscaledAt_scale] at h
      exact (eq_of_unscaledAt_eq hle h.symm).symm
  · rintro rfl
    rfl

end Scaled

theorem Extended.compare_eq_iff {α : Type} {order : α → α → Ordering}
    (h : ∀ a b, order a b = .eq ↔ a = b) {x y : Extended α} :
    compare order x y = .eq ↔ x = y := by
  cases x <;> cases y
  case finite.finite a b => exact (h a b).trans (Eq.to_iff (finite.injEq a b)).symm
  all_goals simp [compare, state, NumberState.rank]

theorem Decimal.ofInteger_toInteger {d : Decimal} (h : d.isIntegral = true) :
    ofInteger d.toInteger = d := by
  cases d with
  | finite x =>
    have hscale : x.scale = 0 := of_decide_eq_true h
    obtain ⟨u, s, hle, hreduced⟩ := x
    cases hscale
    rw [toInteger, tenTo_zero, Int.natCast_one, Int.tdiv_one]
    rfl
  | _ => cases h

namespace Number

@[elab_as_elim]
theorem pair_cases {P : Number → Number → Prop} (whole : ∀ m n, P (integer m) (integer n))
    (left : ∀ d y, P (decimal d) y) (right : ∀ m e, P (integer m) (decimal e)) (x y : Number) :
    P x y := by
  cases x with
  | decimal d => exact left d y
  | integer m =>
    cases y with
    | decimal e => exact right m e
    | integer n => exact whole m n

section Decimal

variable (x y : Number)

theorem toDecimal_plus : (x.plus y).toDecimal = x.toDecimal.plus y.toDecimal := by
  induction x, y using pair_cases with
  | whole m n => exact Decimal.ofInteger_plus m n
  | left | right => rfl

theorem toDecimal_minus : (x.minus y).toDecimal = x.toDecimal.minus y.toDecimal := by
  induction x, y using pair_cases with
  | whole m n => exact Decimal.ofInteger_minus m n
  | left | right => rfl

theorem toDecimal_times : (x.times y).toDecimal = x.toDecimal.times y.toDecimal := by
  induction x, y using pair_cases with
  | whole m n => exact Decimal.ofInteger_times m n
  | left | right => rfl

theorem toDecimal_modulo : (x.modulo y).toDecimal = x.toDecimal.modulo y.toDecimal := by
  induction x, y using pair_cases with
  | whole m n => exact Decimal.ofInteger_modulo m n
  | left | right => rfl

theorem toDecimal_quotient :
    (x.quotient y).toDecimal = x.toDecimal.quotient y.toDecimal := rfl

theorem compare_toDecimal : x.toDecimal.compare y.toDecimal = x.compare y := by
  induction x, y using pair_cases with
  | whole m n => exact Decimal.compare_ofInteger m n
  | left | right => rfl

theorem toDecimal_negate : x.negate.toDecimal = x.toDecimal.negate := by
  cases x with
  | decimal => rfl
  | integer m => exact Decimal.ofInteger_negate m

theorem toDecimal_abs : x.abs.toDecimal = x.toDecimal.abs := by
  cases x with
  | decimal => rfl
  | integer m => exact Decimal.ofInteger_abs m

theorem toDecimal_simplify : x.simplify.toDecimal = x.toDecimal := by
  cases x with
  | integer => rfl
  | decimal d =>
    rw [simplify]
    split
    case isTrue hd => exact Decimal.ofInteger_toInteger hd
    case isFalse => rfl

theorem same_iff : x.same y = true ↔ x.toDecimal = y.toDecimal := by
  rw [same, beq_iff_eq, ← compare_toDecimal]
  exact Extended.compare_eq_iff fun _ _ => Scaled.compare_eq_iff

end Decimal

/--
Arithmetic does not tell numbers apart that are the same, whatever their kinds and states: two
numbers are the same if they have the same decimal, and the decimal of what comes of whole numbers
is what comes of their decimals.
-/
theorem same_congr :
    (∀ a a' : Number, a.same a' = true ↔ a.toDecimal = a'.toDecimal) ∧
    (∀ a a' b b' : Number, a.same a' = true → b.same b' = true →
      (a.plus b).same (a'.plus b') = true ∧ (a.minus b).same (a'.minus b') = true ∧
      (a.times b).same (a'.times b') = true ∧ (a.quotient b).same (a'.quotient b') = true ∧
      (a.modulo b).same (a'.modulo b') = true ∧ a.compare b = a'.compare b' ∧
      a.abs.same a'.abs = true ∧ a.negate.same a'.negate = true ∧
      a.simplify.same a'.simplify = true ∧ a.toDecimal = a'.toDecimal) ∧
    ∀ (m n : Integer) (k : Nat),
      let decimal := Decimal.ofInteger
      decimal (m.plus n) = (decimal m).plus (decimal n) ∧
      decimal (m.minus n) = (decimal m).minus (decimal n) ∧
      decimal (m.times n) = (decimal m).times (decimal n) ∧
      decimal (m.quotient n) = (decimal m).divide 0 .down (decimal n) ∧
      decimal (m.modulo n) = (decimal m).modulo (decimal n) ∧
      decimal (m.power k) = (decimal m).power k ∧
      decimal m.abs = (decimal m).abs ∧ decimal m.negate = (decimal m).negate ∧
      decimal m.signum = (decimal m).signum ∧ (decimal m).compare (decimal n) = m.compare n := by
  refine ⟨same_iff, fun a a' b b' ha hb => ?_, fun m n k => ?_⟩
  · rw [same_iff] at ha hb
    simp only [same_iff, toDecimal_plus, toDecimal_minus, toDecimal_times, toDecimal_modulo,
      toDecimal_quotient, toDecimal_abs, toDecimal_negate, toDecimal_simplify, ← compare_toDecimal,
      ha, hb, and_self]
  · exact ⟨Decimal.ofInteger_plus m n, Decimal.ofInteger_minus m n, Decimal.ofInteger_times m n,
      Decimal.ofInteger_quotient m n, Decimal.ofInteger_modulo m n, Decimal.ofInteger_power m k,
      Decimal.ofInteger_abs m, Decimal.ofInteger_negate m, Decimal.ofInteger_signum m,
      Decimal.compare_ofInteger m n⟩

theorem same_congr_seven :
    let a : Number := .integer (.finite (-7))
    let a' : Number := .decimal (.finite (.ofInt (-7)))
    let b : Number := .integer (.finite 2)
    let b' : Number := .decimal (.finite (.ofInt 2))
    a.same a' = true ∧ b.same b' = true ∧ a.modulo b = .integer (.finite (-1)) ∧
      a'.modulo b' = .decimal (.finite (.ofInt (-1))) ∧
      (a.modulo b).same (a'.modulo b') = true := by
  intro a a' b b'
  have ha : a.same a' = true := by decide
  have hb : b.same b' = true := by decide
  obtain ⟨-, -, -, -, hmodulo, -⟩ := same_congr.2.1 a a' b b' ha hb
  exact ⟨ha, hb, by decide, by decide, hmodulo⟩

end Number

end ScriptValue
