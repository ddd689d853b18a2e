import ScriptValue.Proofs.Number.RoundTo

namespace ScriptValue.Decimal

variable {d e : Decimal} {p q : ℚ}

@[simp] theorem denotes_ofInt (n : Int) : (ofInt n).Denotes n :=
  congrArg some (Scaled.toRat_ofInt n)

theorem Denotes.times (hd : d.Denotes p) (he : e.Denotes q) (h : d.scale + e.scale ≤ maxScale) :
    (d.times e).Denotes (p * q) := by
  obtain ⟨x, rfl, rfl⟩ := hd.exists_eq
  obtain ⟨y, rfl, rfl⟩ := he.exists_eq
  exact denotes_times x y h

theorem Denotes.times_ofInt (hd : d.Denotes q) (n : Int) :
    (d.times (.ofInt n)).Denotes (q * n) :=
  hd.times (denotes_ofInt n) d.scale_le

theorem Denotes.toInteger (hd : d.Denotes q) : d.toInteger = .finite (Rounding.down.round q) := by
  obtain ⟨x, rfl, rfl⟩ := hd.exists_eq
  have hne : (tenTo x.scale : Int) ≠ 0 := Nat.cast_ne_zero.2 (tenTo_pos _).ne'
  rw [Scaled.toRat, ← Int.cast_natCast, ← Rounding.divide_eq_round _ _ hne, Rounding.down_divide]
  rfl

@[simp] theorem toInteger_ofInteger (n : Integer) : (ofInteger n).toInteger = n := by
  cases n with
  | finite n =>
    have htoInteger := (denotes_ofInt n).toInteger
    rwa [Rounding.round_intCast] at htoInteger
  | _ => rfl

theorem Denotes.floor (hd : d.Denotes q) : d.floor = .ofInt ⌊q⌋ := by
  have hfloor := hd.roundTo 0 .floor
  rw [tenTo_zero, Nat.cast_one, mul_one, div_one] at hfloor
  exact hfloor.eq (denotes_ofInt _)

theorem Denotes.isIntegral_iff (hd : d.Denotes q) : d.isIntegral = true ↔ ∃ n : ℤ, q = n := by
  constructor
  · intro h
    have hwhole : d.Denotes (Rounding.down.round q) := by
      rw [← ofInteger_toInteger h, hd.toInteger]
      exact denotes_ofInt _
    exact ⟨_, Option.some.inj (hd.symm.trans hwhole)⟩
  · rintro ⟨n, rfl⟩
    rw [hd.eq (denotes_ofInt n)]
    rfl

theorem ofInt_injective : Function.Injective ofInt := by
  intro m n h
  cases h
  rfl

theorem exists_denotes_of_floor {n : Int} (h : d.floor = .ofInt n) :
    ∃ q, d.Denotes q ∧ ⌊q⌋ = n := by
  cases d with
  | finite x =>
    have hfloor : floor (.finite x) = .ofInt ⌊x.toRat⌋ := (denotes_finite x).floor
    exact ⟨_, denotes_finite x, ofInt_injective (hfloor.symm.trans h)⟩
  | _ => cases h

end ScriptValue.Decimal

namespace ScriptValue.Number

theorem value?_simplify (x : Number) : x.simplify.value? = x.value? := by
  rw [← value?_toDecimal, toDecimal_simplify, value?_toDecimal]

theorem toInteger_simplify (x : Number) : x.simplify.toInteger = x.toInteger := by
  cases x with
  | integer => rfl
  | decimal d =>
    rw [simplify]
    split <;> rfl

theorem exists_simplify_eq_integer_iff (d : Decimal) :
    (∃ n, (decimal d).simplify = integer n) ↔ d.isIntegral = true := by
  rw [simplify]
  split
  case isTrue h => exact iff_of_true ⟨_, rfl⟩ h
  case isFalse h =>
    refine iff_of_false ?_ h
    rintro ⟨n, hn⟩
    cases hn

end ScriptValue.Number
