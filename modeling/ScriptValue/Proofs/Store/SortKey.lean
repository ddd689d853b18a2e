import ScriptValue.Proofs.Number.Order
import ScriptValue.Store.Sort

namespace ScriptValue

/--
The same elements in order, where those that were in order already are as they were: elements that
may stand in either order do not change places.
-/
structure StablySorted {α : Type} (r : α → α → Prop) (xs ys : List α) : Prop where
  perm : ys.Perm xs
  pairwise : ys.Pairwise r
  sublist {zs : List α} : zs.Sublist xs → zs.Pairwise r → zs.Sublist ys

namespace StablySorted

variable {α : Type} {r : α → α → Prop} {xs ys : List α}

theorem filter_eq (h : StablySorted r xs ys) {p : α → Bool}
    (hp : ∀ a b, p a = true → p b = true → r a b) : ys.filter p = xs.filter p := by
  have hpairwise : (xs.filter p).Pairwise r := by
    refine List.Pairwise.imp_of_mem ?_ (List.pairwise_of_forall fun _ _ => trivial)
    intro a b ha hb _
    exact hp a b (List.mem_filter.1 ha).2 (List.mem_filter.1 hb).2
  have hsublist : (xs.filter p).Sublist (ys.filter p) := by
    simpa only [List.filter_filter, Bool.and_self] using
      (h.sublist List.filter_sublist hpairwise).filter p
  exact (hsublist.eq_of_length (h.perm.filter p).length_eq.symm).symm

theorem of_imp {r' : α → α → Prop} (h : StablySorted r xs ys) (hr : ∀ a b, r a b ↔ r' a b) :
    StablySorted r' xs ys := by
  obtain rfl : r = r' := funext fun a => funext fun b => propext (hr a b)
  exact h

end StablySorted

theorem eq_filter_append_filter {α : Type} {p : α → Bool} {xs : List α}
    (h : xs.Pairwise fun a b => p a = true → p b = true) :
    xs = xs.filter (fun a => !p a) ++ xs.filter p := by
  induction h with
  | nil => rfl
  | @cons a xs ha _ ih =>
    cases hp : p a with
    | false => simpa [hp] using ih
    | true =>
      have hall : ∀ b ∈ xs, p b = true := fun b hb => ha b hb hp
      have hnone : xs.filter (fun b => !p b) = [] := by simpa using hall
      simp [hp, hnone, List.filter_eq_self.2 hall]

theorem stablySorted_sortBy {α : Type} (order : α → α → Ordering)
    (trans : ∀ a b c, (order a b).isLE = true → (order b c).isLE = true → (order a c).isLE = true)
    (total : ∀ a b, (order a b).isLE = true ∨ (order b a).isLE = true) (xs : List α) :
    StablySorted (fun a b => (order a b).isLE = true) xs (sortBy order xs) := by
  have htotal : ∀ a b, ((order a b).isLE || (order b a).isLE) = true := by
    simpa only [Bool.or_eq_true] using total
  exact ⟨List.mergeSort_perm xs _, List.pairwise_mergeSort trans htotal xs,
    fun hsublist hpairwise => List.sublist_mergeSort trans htotal hpairwise hsublist⟩

theorem sortBy_of_pairwise {α : Type} {order : α → α → Ordering} {xs : List α}
    (h : xs.Pairwise fun a b => (order a b).isLE = true) : sortBy order xs = xs :=
  List.mergeSort_of_pairwise h

theorem sortBy_pair {α : Type} (order : α → α → Ordering) (x y : α) :
    sortBy order [x, y] = if (order x y).isLE then [x, y] else [y, x] := by
  rw [sortBy, List.mergeSort]
  simp [List.merge]

instance Text.transCmp_char : Std.TransCmp fun c d : Char => Ord.compare c.val d.val :=
  inferInstanceAs (Std.TransCmp (compareOn Char.val))

instance Text.lawfulEqCmp_char : Std.LawfulEqCmp fun c d : Char => Ord.compare c.val d.val where
  compare_self := Std.ReflCmp.compare_self
  eq_of_compare h := Char.ext (Std.LawfulEqCmp.eq_of_compare h)

instance : Std.TransCmp Text.compare := inferInstanceAs (Std.TransCmp (List.compareLex _))

instance : Std.LawfulEqCmp Text.compare := inferInstanceAs (Std.LawfulEqCmp (List.compareLex _))

theorem SortDirection.apply_eq_iff {direction : SortDirection} {o : Ordering} :
    direction.apply o = .eq ↔ ascending.apply o = .eq := by
  cases direction with
  | ascending => rfl
  | descending => cases o <;> simp [apply]

section

variable {α : Type} {order : α → α → Ordering} [Std.TransCmp order] {direction : SortDirection}

theorem SortDirection.isLE_apply_iff {a b : α} :
    (direction.apply (order a b)).isLE = true ↔
      match direction with
      | .ascending => (order a b).isLE = true
      | .descending => (order b a).isLE = true := by
  have hswap : (order a b).swap = order b a := Std.OrientedCmp.eq_swap.symm
  cases direction with
  | ascending => rfl
  | descending => rw [SortDirection.apply, hswap]

theorem SortDirection.isLE_apply_trans {a b c : α} (hab : (direction.apply (order a b)).isLE = true)
    (hbc : (direction.apply (order b c)).isLE = true) :
    (direction.apply (order a c)).isLE = true := by
  rw [isLE_apply_iff] at hab hbc ⊢
  cases direction with
  | ascending => exact Std.TransCmp.isLE_trans hab hbc
  | descending => exact Std.TransCmp.isLE_trans hbc hab

theorem SortDirection.apply_swap {a b : α} :
    direction.apply (order a b) = (direction.apply (order b a)).swap := by
  have hswap : order a b = (order b a).swap := Std.OrientedCmp.eq_swap
  rw [hswap]
  cases direction <;> rfl

theorem SortKey.missingLast_trans {a b c : Option α}
    (hab : (missingLast order direction a b).isLE = true)
    (hbc : (missingLast order direction b c).isLE = true) :
    (missingLast order direction a c).isLE = true := by
  cases a with
  | none =>
    cases b with
    | none => exact hbc
    | some b => cases hab
  | some a =>
    cases b with
    | none =>
      cases c with
      | none => rfl
      | some c => cases hbc
    | some b =>
      cases c with
      | none => rfl
      | some c => exact SortDirection.isLE_apply_trans hab hbc

theorem SortKey.missingLast_swap {a b : Option α} :
    missingLast order direction a b = (missingLast order direction b a).swap := by
  cases a with
  | none => cases b <;> rfl
  | some a =>
    cases b with
    | none => rfl
    | some b => exact SortDirection.apply_swap

end

namespace SortKey

theorem missingLast_eq_iff {α : Type} {order : α → α → Ordering} {direction : SortDirection}
    {m n : Option α} :
    missingLast order direction m n = .eq ↔ missingLast order .ascending m n = .eq := by
  cases m with
  | none => cases n <;> rfl
  | some m =>
    cases n with
    | none => rfl
    | some n => exact SortDirection.apply_eq_iff

def compareText : Text × Text → Text × Text → Ordering :=
  compareLex (fun p q => Text.compare p.1 q.1) fun p q => Text.compare p.2 q.2

instance : Std.TransCmp fun p q : Text × Text => Text.compare p.1 q.1 where
  eq_swap := Std.OrientedCmp.eq_swap
  isLE_trans := Std.TransCmp.isLE_trans

instance : Std.TransCmp fun p q : Text × Text => Text.compare p.2 q.2 where
  eq_swap := Std.OrientedCmp.eq_swap
  isLE_trans := Std.TransCmp.isLE_trans

instance : Std.TransCmp compareText := inferInstanceAs (Std.TransCmp (compareLex _ _))

variable [DateLibrary]

def style : SortKey → SortStyle
  | text _ _ => .text
  | number _ => .numeric
  | date _ => .dateTime

def isMissing : SortKey → Bool
  | text _ _ => false
  | number n => n.isNone
  | date d => d.isNone

inductive Ascends : SortKey → SortKey → Prop
  | folded {f e f' e'} : Text.compare f f' = .lt → Ascends (text f e) (text f' e')
  | exact {f e e'} : (Text.compare e e').isLE = true → Ascends (text f e) (text f e')
  | number {m n : Number} : (m.compare n).isLE = true → Ascends (number (some m)) (number (some n))
  | date {t t' : DateLibrary.Moment} :
    (Ord.compare t t').isLE = true → Ascends (date (some t)) (date (some t'))

/-- Whether a key may stand before another: in the direction, or before a key that is missing. -/
inductive MayPrecede (direction : SortDirection) : SortKey → SortKey → Prop
  | ascending {a b} : direction = .ascending → Ascends a b → MayPrecede direction a b
  | descending {a b} : direction = .descending → Ascends b a → MayPrecede direction a b
  | missing {a b} : b.isMissing = true → MayPrecede direction a b

variable {direction : SortDirection} {a b c : SortKey}

theorem Ascends.isMissing_eq (h : Ascends a b) : a.isMissing = false ∧ b.isMissing = false := by
  cases h <;> exact ⟨rfl, rfl⟩

theorem mayPrecede_iff_of_isMissing (h : b.isMissing = false) :
    MayPrecede direction a b ↔
      match direction with
      | .ascending => Ascends a b
      | .descending => Ascends b a := by
  constructor
  · intro hab
    cases hab with
    | ascending hdirection hab => rwa [hdirection]
    | descending hdirection hab => rwa [hdirection]
    | missing hb => simp [h] at hb
  · intro hab
    cases direction with
    | ascending => exact .ascending rfl hab
    | descending => exact .descending rfl hab

theorem compare_text {f e f' e' : Text} :
    compare direction (text f e) (text f' e') = direction.apply (compareText (f, e) (f', e')) :=
  rfl

theorem isLE_compareText_iff (p q : Text × Text) :
    (compareText p q).isLE = true ↔ Ascends (text p.1 p.2) (text q.1 q.2) := by
  rw [compareText, compareLex, Ordering.isLE_then_iff_or]
  constructor
  · rintro (hlt | ⟨heq, hle⟩)
    · exact .folded hlt
    · rw [Std.LawfulEqCmp.eq_of_compare heq]
      exact .exact hle
  · obtain ⟨f, e⟩ := p
    obtain ⟨f', e'⟩ := q
    intro h
    cases h with
    | folded hlt => exact .inl hlt
    | exact hle => exact .inr ⟨Std.ReflCmp.compare_self, hle⟩

theorem isMissing_of_mayPrecede (h : MayPrecede direction a b) (ha : a.isMissing = true) :
    b.isMissing = true := by
  cases h with
  | ascending _ hab => simp [hab.isMissing_eq.1] at ha
  | descending _ hba => simp [hba.isMissing_eq.2] at ha
  | missing hb => exact hb

theorem isLE_apply_iff_mayPrecede {α : Type} {order : α → α → Ordering} [Std.TransCmp order]
    (key : α → SortKey) (hkey : ∀ x, (key x).isMissing = false)
    (hascends : ∀ x y, (order x y).isLE = true ↔ Ascends (key x) (key y)) {x y : α} :
    (direction.apply (order x y)).isLE = true ↔ MayPrecede direction (key x) (key y) := by
  rw [SortDirection.isLE_apply_iff, mayPrecede_iff_of_isMissing (hkey y)]
  cases direction with
  | ascending => exact hascends x y
  | descending => exact hascends y x

theorem isLE_missingLast_iff {α : Type} {order : α → α → Ordering} [Std.TransCmp order]
    {key : Option α → SortKey} (hkey : ∀ x, (key x).isMissing = x.isNone)
    (hascends : ∀ x y, (order x y).isLE = true ↔ Ascends (key (some x)) (key (some y)))
    {m n : Option α} :
    (missingLast order direction m n).isLE = true ↔ MayPrecede direction (key m) (key n) := by
  cases n with
  | none => cases m <;> exact iff_of_true rfl (.missing (hkey none))
  | some n =>
    cases m with
    | some m => exact isLE_apply_iff_mayPrecede _ (fun x => hkey (some x)) hascends
    | none =>
      -- a missing key would have to be in order with one that is there, in either direction
      refine iff_of_false (by simp [missingLast]) fun h => ?_
      rw [mayPrecede_iff_of_isMissing (hkey (some n))] at h
      have hnone := hkey none
      cases direction with
      | ascending => simp [h.isMissing_eq.1] at hnone
      | descending => simp [h.isMissing_eq.2] at hnone

theorem ascends_number_iff (m n : Number) :
    (m.compare n).isLE = true ↔ Ascends (number (some m)) (number (some n)) :=
  ⟨.number, fun | .number h => h⟩

theorem ascends_date_iff (t u : DateLibrary.Moment) :
    (Ord.compare t u).isLE = true ↔ Ascends (date (some t)) (date (some u)) :=
  ⟨.date, fun | .date h => h⟩

def ties (a b : SortKey) : Bool := compare .ascending a b == .eq

theorem ties_iff : a.ties b = true ↔ compare direction a b = .eq := by
  rw [ties, beq_iff_eq]
  cases a <;> cases b
  case text.text => exact SortDirection.apply_eq_iff.symm
  case number.number => exact missingLast_eq_iff.symm
  case date.date => exact missingLast_eq_iff.symm
  all_goals rfl

theorem eq_append_filter_isMissing {α : Type} {key : α → SortKey} {xs ys : List α}
    (h : StablySorted (fun x y => MayPrecede direction (key x) (key y)) xs ys) :
    ys = (ys.filter fun y => !(key y).isMissing) ++ xs.filter fun y => (key y).isMissing := by
  have hlast : ys.Pairwise fun x y => (key x).isMissing = true → (key y).isMissing = true :=
    h.pairwise.imp fun hxy hx => isMissing_of_mayPrecede hxy hx
  -- any key may stand before a missing one, so these have not changed places
  rw [← h.filter_eq fun x y _ hy => .missing hy]
  exact eq_filter_append_filter hlast

section

variable [Std.TransOrd DateLibrary.Moment]

theorem isLE_compare_trans (hab : a.style = b.style) (hbc : b.style = c.style)
    (hle : (compare direction a b).isLE = true) (hle' : (compare direction b c).isLE = true) :
    (compare direction a c).isLE = true := by
  cases a <;> cases b <;> cases hab <;> cases c <;> cases hbc
  · rw [compare_text] at hle hle' ⊢
    exact SortDirection.isLE_apply_trans hle hle'
  · exact missingLast_trans hle hle'
  · exact missingLast_trans hle hle'

theorem compare_swap : compare direction a b = (compare direction b a).swap := by
  cases a <;> cases b
  case text.text =>
    rw [compare_text, compare_text]
    exact SortDirection.apply_swap
  case number.number => exact missingLast_swap
  case date.date => exact missingLast_swap
  all_goals rfl

theorem isLE_compare_total :
    (compare direction a b).isLE = true ∨ (compare direction b a).isLE = true := by
  rw [compare_swap (a := b), Ordering.isLE_swap]
  cases compare direction a b <;> simp

theorem isLE_compare_iff (h : a.style = b.style) :
    (compare direction a b).isLE = true ↔ MayPrecede direction a b := by
  cases a <;> cases b <;> cases h
  · rw [compare_text]
    exact isLE_apply_iff_mayPrecede (fun p : Text × Text => text p.1 p.2) (fun _ => rfl)
      isLE_compareText_iff
  · exact isLE_missingLast_iff (fun _ => rfl) ascends_number_iff
  · exact isLE_missingLast_iff (fun _ => rfl) ascends_date_iff

theorem mayPrecede_of_ties (hac : a.style = c.style) (hbc : b.style = c.style)
    (ha : a.ties c = true) (hb : b.ties c = true) : MayPrecede direction a b := by
  have hle : (compare direction a c).isLE = true := by rw [ties_iff.1 ha, Ordering.isLE_eq]
  have hle' : (compare direction c b).isLE = true := by
    rw [compare_swap, ties_iff.1 hb, Ordering.swap_eq, Ordering.isLE_eq]
  rw [← isLE_compare_iff (hac.trans hbc.symm)]
  exact isLE_compare_trans hac hbc.symm hle hle'

variable {α : Type} {key : α → SortKey} {style : SortStyle}

theorem stablySorted_sortBy_compare (hstyle : ∀ x, (key x).style = style)
    (direction : SortDirection) (xs : List α) :
    StablySorted (fun x y => MayPrecede direction (key x) (key y)) xs
      (sortBy (fun x y => compare direction (key x) (key y)) xs) := by
  have heq (x y : α) : (key x).style = (key y).style := (hstyle x).trans (hstyle y).symm
  have h := stablySorted_sortBy (fun x y => compare direction (key x) (key y))
    (fun x y z => isLE_compare_trans (heq x y) (heq y z)) (fun _ _ => isLE_compare_total) xs
  exact h.of_imp fun x y => isLE_compare_iff (heq x y)

theorem filter_ties_eq {xs ys : List α}
    (h : StablySorted (fun x y => MayPrecede direction (key x) (key y)) xs ys)
    (hstyle : ∀ x, (key x).style = style) (x : α) :
    (ys.filter fun y => (key y).ties (key x)) = xs.filter fun y => (key y).ties (key x) := by
  have heq (y : α) : (key y).style = (key x).style := (hstyle y).trans (hstyle x).symm
  exact h.filter_eq fun y z => mayPrecede_of_ties (heq y) (heq z)

end

end SortKey

end ScriptValue
