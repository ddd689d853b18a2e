import ScriptValue.Proofs.Number.Denotation
import Mathlib.Data.Prod.Lex

namespace ScriptValue.Number

/-- Where a number stands: first by its state, and among the defined numbers by its value. -/
def place (x : Number) : Nat ×ₗ Option ℚ := toLex (x.state.rank, x.value?)

theorem state_toDecimal (x : Number) : x.toDecimal.state = x.state := by
  obtain (_ | _ | _ | _) | d := x <;> rfl

theorem place_toDecimal (x : Number) : (decimal x.toDecimal).place = x.place := by
  rw [place, place, value?_toDecimal]
  exact congrArg (fun s : NumberState => toLex (s.rank, x.value?)) (state_toDecimal x)

theorem compare_place_decimal (d e : Decimal) :
    d.compare e = Ord.compare (decimal d).place (decimal e).place := by
  cases d <;> cases e
  case finite.finite x y => exact Scaled.compare_toRat x y
  all_goals rfl

theorem compare_place (x y : Number) : x.compare y = Ord.compare x.place y.place := by
  rw [← compare_toDecimal, compare_place_decimal, place_toDecimal, place_toDecimal]

instance : Std.TransCmp compare where
  eq_swap := by
    intro x y
    rw [compare_place, compare_place]
    exact Std.OrientedOrd.eq_swap
  isLE_trans := by
    intro x y z hxy hyz
    rw [compare_place] at hxy hyz ⊢
    exact Std.TransOrd.isLE_trans hxy hyz

variable {x y : Number}

theorem compare_of_rank_lt (h : x.state.rank < y.state.rank) : x.compare y = .lt := by
  rw [compare_place]
  change (Ord.compare x.state.rank y.state.rank).then _ = _
  rw [Nat.compare_eq_lt.2 h]
  rfl

theorem compare_negInfinity (hx : x.state = .negInfinity) (hy : y.state ≠ .negInfinity) :
    x.compare y = .lt := by
  refine compare_of_rank_lt ?_
  rw [hx]
  cases h : y.state with
  | negInfinity => exact absurd h hy
  | _ => decide

theorem compare_infinity (hx : x.isDefined = true) (hy : y.state = .infinity) :
    x.compare y = .lt := by
  refine compare_of_rank_lt ?_
  rw [beq_iff_eq.1 hx, hy]
  decide

theorem compare_nan (hx : x.state ≠ .nan) (hy : y.state = .nan) : x.compare y = .lt := by
  refine compare_of_rank_lt ?_
  rw [hy]
  cases h : x.state with
  | nan => exact absurd h hx
  | _ => decide

theorem compare_of_value? {p q : ℚ} (hx : x.value? = some p) (hy : y.value? = some q) :
    x.compare y = Ord.compare p q := by
  have hrank {z : Number} {r : ℚ} (hz : z.value? = some r) : z.state.rank = 1 := by
    have hdefined : z.isDefined = true := by rw [← isSome_value?, hz, Option.isSome_some]
    rw [beq_iff_eq.1 hdefined]
    rfl
  rw [compare_place, place, place, hrank hx, hrank hy, hx, hy]
  rfl

theorem toDecimal_eq_nan_iff (x : Number) : x.toDecimal = .nan ↔ x.state = .nan := by
  rw [← state_toDecimal]
  cases x.toDecimal <;> simp [Extended.state]

theorem same_nan_iff (hx : x.state = .nan) : x.same y = true ↔ y.state = .nan := by
  rw [same_iff, (toDecimal_eq_nan_iff x).2 hx, eq_comm, toDecimal_eq_nan_iff]

theorem equivalence_same : Equivalence fun x y : Number => x.same y = true := by
  simp only [same_iff]
  exact ⟨fun x => rfl, fun h => h.symm, fun h h' => h.trans h'⟩

/--
Numbers of both kinds and all states are in one total order. It puts the infinities at either end of
the defined numbers and nan after all others, defined numbers are in the order of what they denote,
and numbers that share a place are the same.
-/
theorem compare_total :
    (∀ x : Number, x.compare x = .eq) ∧
    (∀ x y : Number, y.compare x = (x.compare y).swap) ∧
    (∀ x y : Number, (x.compare y).isLE = true ∨ (y.compare x).isLE = true) ∧
    (∀ x y : Number, (x.compare y).isLE = true → (y.compare x).isLE = true → x.same y = true) ∧
    (∀ x y z : Number, (x.compare y).isLE = true → (y.compare z).isLE = true →
      (x.compare z).isLE = true) ∧
    (∀ x y : Number, x.state = .negInfinity → y.state ≠ .negInfinity → x.compare y = .lt) ∧
    (∀ x y : Number, x.isDefined = true → y.state = .infinity → x.compare y = .lt) ∧
    (∀ x y : Number, x.state ≠ .nan → y.state = .nan → x.compare y = .lt) ∧
    (∀ (x y : Number) (p q : ℚ), x.value? = some p → y.value? = some q →
      x.compare y = Ord.compare p q) ∧
    Equivalence (fun x y : Number => x.same y = true) ∧
    ∀ x y : Number, x.state = .nan → (x.same y = true ↔ y.state = .nan) := by
  refine ⟨fun x => Std.ReflCmp.compare_self, fun x y => Std.OrientedCmp.eq_swap, fun x y => ?_,
    fun x y hxy hyx => beq_iff_eq.2 (Std.OrientedCmp.isLE_antisymm hxy hyx),
    fun x y z => Std.TransCmp.isLE_trans, fun x y => compare_negInfinity,
    fun x y => compare_infinity, fun x y => compare_nan, fun x y p q => compare_of_value?,
    equivalence_same, fun x y => same_nan_iff⟩
  have hswap : y.compare x = (x.compare y).swap := Std.OrientedCmp.eq_swap
  rw [hswap]
  cases x.compare y <;> decide

theorem compare_total_mixed :
    let x : Number := .integer (.finite 2)
    let y : Number := .decimal (.finite ⟨25, 1, by decide, .inr (by decide)⟩)
    let z : Number := .integer (.finite 3)
    let top : Number := .integer .infinity
    let last : Number := .decimal .nan
    (x.compare y).isLE = true ∧ (y.compare z).isLE = true ∧ (x.compare z).isLE = true ∧
      x.value? = some 2 ∧ y.value? = some (25 / 10) ∧ x.compare y = Ord.compare 2 (25 / 10 : ℚ) ∧
      y.isDefined = true ∧ y.compare top = .lt ∧ top.state ≠ .nan ∧ top.compare last = .lt ∧
      (last.same (.integer .nan) = true ↔ (integer .nan).state = .nan) := by
  intro x y z top last
  obtain ⟨-, -, -, -, htrans, -, hinfinity, hnan, hvalue, -, hsame⟩ := compare_total
  have hxy : (x.compare y).isLE = true := by decide
  have hyz : (y.compare z).isLE = true := by decide
  have hy : y.isDefined = true := by decide
  have htop : top.state ≠ .nan := by decide
  have hx2 : x.value? = some 2 := rfl
  have hy25 : y.value? = some (25 / 10) := by simp [y, value?, Scaled.toRat, tenTo]
  exact ⟨hxy, hyz, htrans x y z hxy hyz, hx2, hy25, hvalue x y _ _ hx2 hy25, hy,
    hinfinity y top hy rfl, htop, hnan top last htop rfl, hsame last _ rfl⟩

end ScriptValue.Number
