import ScriptValue.Proofs.Entries.Merge
import ScriptValue.Proofs.Value.Tree
import Mathlib.Data.List.Perm.Subperm

namespace ScriptValue

section Rel

variable {α β : Type} {R : α → β → Prop} {x : Option α} {y : Option β}

theorem eq_none_iff_of_rel (h : Option.Rel R x y) : x = none ↔ y = none := by
  cases h <;> simp

theorem exists_of_rel (h : Option.Rel R x y) {a : α} (hx : x = some a) :
    ∃ b, y = some b ∧ R a b := by
  cases h with
  | some hab =>
    cases hx
    exact ⟨_, rfl, hab⟩
  | none => cases hx

end Rel

theorem forall₂_symm {α : Type} {R S : α → α → Prop} {xs ys : List α} (h : List.Forall₂ R xs ys)
    (hRS : ∀ x ∈ xs, ∀ y ∈ ys, R x y → S y x) : List.Forall₂ S ys xs := by
  induction h with
  | nil => exact .nil
  | cons hxy _ ih =>
    refine .cons (hRS _ List.mem_cons_self _ List.mem_cons_self hxy) (ih fun x hx y hy => ?_)
    exact hRS x (List.mem_cons_of_mem _ hx) y (List.mem_cons_of_mem _ hy)

theorem forall₂_trans {α : Type} {R S T : α → α → Prop} {xs ys zs : List α}
    (h : List.Forall₂ R xs ys) (h' : List.Forall₂ S ys zs)
    (hRST : ∀ x ∈ xs, ∀ y ∈ ys, ∀ z ∈ zs, R x y → S y z → T x z) : List.Forall₂ T xs zs := by
  induction h generalizing zs with
  | nil =>
    cases h'
    exact .nil
  | cons hxy _ ih =>
    cases h' with
    | cons hyz h' =>
      refine .cons (hRST _ List.mem_cons_self _ List.mem_cons_self _ List.mem_cons_self hxy hyz)
        (ih h' fun x hx y hy z hz => ?_)
      exact hRST x (List.mem_cons_of_mem _ hx) y (List.mem_cons_of_mem _ hy) z
        (List.mem_cons_of_mem _ hz)

variable [DateLibrary]

/-- A value in whose dictionaries, at every depth, each key stands once. -/
inductive Value.Distinct : Value → Prop where
  | empty : Distinct .empty
  | text (t) : Distinct (.text t)
  | integer (n) : Distinct (.integer n)
  | decimal (d) : Distinct (.decimal d)
  | boolean (b) : Distinct (.boolean b)
  | binary (bs) : Distinct (.binary bs)
  | dictionary {es : Dictionary} (hkeys : es.keys.Nodup) (h : ∀ e ∈ es, Distinct e.2) :
    Distinct (.dictionary es)
  | list {vs : List Value} (h : ∀ v ∈ vs, Distinct v) : Distinct (.list vs)
  | date (d) : Distinct (.date d)
  | variable (name) : Distinct (.variable name)
  | part {v : Value} (a) (h : Distinct v) : Distinct (.part v a)

def Dictionary.Distinct (d : Dictionary) : Prop := Value.Distinct (.dictionary d)

namespace Dictionary

variable {d e f : Dictionary} {v w : Value} {key : Text}

theorem distinct_iff : d.Distinct ↔ d.keys.Nodup ∧ ∀ x ∈ d, x.2.Distinct := by
  constructor
  · intro h
    cases h with
    | dictionary hkeys h => exact ⟨hkeys, h⟩
  · exact fun h => .dictionary h.1 h.2

theorem Distinct.nodup (h : d.Distinct) : d.keys.Nodup := (distinct_iff.1 h).1

def Agree (R : Value → Value → Prop) (d e : Dictionary) : Prop :=
  ∀ key, Option.Rel R (d.get? key) (e.get? key)

theorem Agree.mem_keys_iff {R : Value → Value → Prop} (h : Agree R d e) (key : Text) :
    key ∈ d.keys ↔ key ∈ e.keys := by
  rw [← not_iff_not, ← Entries.get?_eq_none_iff, ← Entries.get?_eq_none_iff]
  exact eq_none_iff_of_rel (h key)

theorem same_iff (hd : d.keys.Nodup) (he : e.keys.Nodup) :
    d.same e = true ↔ Agree (fun v w => v.same w = true) d e := by
  rw [same, Value.same, Bool.and_eq_true, beq_iff_eq, Value.sameEntries_iff]
  constructor
  · rintro ⟨hlength, hsame⟩ key
    -- all keys of `d` are among those of `e`, of which there are no more
    have hsub : d.keys ⊆ e.keys := by
      intro k hk
      obtain ⟨v, hv⟩ := Entries.exists_get?_of_mem hk
      obtain ⟨w, hw, -⟩ := hsame _ (Entries.mem_of_get? hv)
      by_contra hnot
      rw [Entries.get?_of_notMem hnot] at hw
      cases hw
    have hperm : d.keys.Perm e.keys :=
      (List.subperm_of_subset hd hsub).perm_of_length_le (by simp [Entries.keys, hlength])
    cases hv : d.get? key with
    | some v =>
      obtain ⟨w, hw, hvw⟩ := hsame _ (Entries.mem_of_get? hv)
      rw [hw]
      exact .some hvw
    | none =>
      rw [Entries.get?_eq_none_iff, hperm.mem_iff] at hv
      rw [Entries.get?_of_notMem hv]
      exact .none
  · intro h
    have hperm : d.keys.Perm e.keys := (List.perm_ext_iff_of_nodup hd he).2 h.mem_keys_iff
    exact ⟨by simpa [Entries.keys] using hperm.length_eq,
      fun x hx => exists_of_rel (h x.1) (Entries.get?_of_mem hd hx)⟩

namespace Agree

variable {R S : Value → Value → Prop}

theorem symm (h : Agree R d e)
    (hRS : ∀ {key v w}, d.get? key = some v → e.get? key = some w → R v w → S w v) :
    Agree S e d := by
  intro key
  have hkey := h key
  cases hv : d.get? key with
  | none =>
    rw [(eq_none_iff_of_rel hkey).1 hv]
    exact .none
  | some v =>
    obtain ⟨w, hw, hvw⟩ := exists_of_rel hkey hv
    rw [hw]
    exact .some (hRS hv hw hvw)

theorem trans {T : Value → Value → Prop} (h : Agree R d e) (h' : Agree S e f)
    (hRST : ∀ {key u v w}, d.get? key = some u → e.get? key = some v → f.get? key = some w →
      R u v → S v w → T u w) : Agree T d f := by
  intro key
  cases hu : d.get? key with
  | none =>
    rw [(eq_none_iff_of_rel (h' key)).1 ((eq_none_iff_of_rel (h key)).1 hu)]
    exact .none
  | some u =>
    obtain ⟨v, hv, huv⟩ := exists_of_rel (h key) hu
    obtain ⟨w, hw, hvw⟩ := exists_of_rel (h' key) hv
    rw [hw]
    exact .some (hRST hu hv hw huv hvw)

theorem insert (h : Agree R d e) (hvw : R v w) (key : Text) :
    Agree R (Entries.insert key v d) (Entries.insert key w e) := by
  intro other
  rw [Entries.get?_insert, Entries.get?_insert]
  split
  case isTrue => exact .some hvw
  case isFalse => exact h other

theorem erase (h : Agree R d e) (hd : d.keys.Nodup) (he : e.keys.Nodup) (key : Text) :
    Agree R (Entries.erase key d) (Entries.erase key e) := by
  intro other
  rw [Entries.get?_erase key other hd, Entries.get?_erase key other he]
  split
  case isTrue => exact .none
  case isFalse => exact h other

theorem merge {d' e' : Dictionary} (h : Agree R d e) (h' : Agree R d' e') (hd' : d'.keys.Nodup)
    (he' : e'.keys.Nodup) : Agree R (Entries.merge d d') (Entries.merge e e') := by
  intro key
  rw [Entries.get?_merge hd', Entries.get?_merge he']
  cases hv : d'.get? key with
  | none =>
    rw [(eq_none_iff_of_rel (h' key)).1 hv]
    exact h key
  | some v =>
    obtain ⟨w, hw, hvw⟩ := exists_of_rel (h' key) hv
    rw [hw]
    exact .some hvw

end Agree

end Dictionary

namespace Value

variable {u v w : Value}

theorem sameAll_iff {vs ws : List Value} :
    sameAll vs ws = true ↔ List.Forall₂ (fun v w => v.same w = true) vs ws := by
  induction vs generalizing ws with
  | nil => cases ws <;> simp [sameAll]
  | cons v vs ih => cases ws <;> simp [sameAll, ih]

theorem Distinct.same_self (h : v.Distinct) : v.same v = true := by
  induction h with
  | @dictionary es hkeys _ ih =>
    refine (Dictionary.same_iff hkeys hkeys).2 fun key => ?_
    cases hv : Entries.get? key es with
    | none => exact .none
    | some v => exact .some (ih _ (Entries.mem_of_get? hv))
  | list _ ih => exact sameAll_iff.2 (List.forall₂_same.2 ih)
  | part a _ ih => simp [same, ih]
  | _ => simp [same]

theorem Distinct.same_symm (hv : v.Distinct) (hw : w.Distinct) (h : v.same w = true) :
    w.same v = true := by
  induction hv generalizing w with
  | dictionary hkeys _ ih =>
    cases hw with
    | dictionary hkeys' hes =>
      refine (Dictionary.same_iff hkeys' hkeys).2 ?_
      refine ((Dictionary.same_iff hkeys hkeys').1 h).symm fun hx hy => ?_
      exact ih _ (Entries.mem_of_get? hx) (hes _ (Entries.mem_of_get? hy))
    | _ => cases h
  | list _ ih =>
    cases hw with
    | list hws =>
      refine sameAll_iff.2 (forall₂_symm (sameAll_iff.1 h) ?_)
      exact fun x hx y hy => ih x hx (hws y hy)
    | _ => cases h
  | part a _ ih =>
    cases hw with
    | part b hw =>
      simp only [same, Bool.and_eq_true, beq_iff_eq] at h ⊢
      exact ⟨ih hw h.1, h.2.symm⟩
    | _ => cases h
  | _ => cases w <;> simp_all [same]

theorem Distinct.same_trans (hu : u.Distinct) (hv : v.Distinct) (hw : w.Distinct)
    (huv : u.same v = true) (hvw : v.same w = true) : u.same w = true := by
  induction hu generalizing v w with
  | dictionary hkeys _ ih =>
    cases hv with
    | dictionary hkeys' hes' =>
      cases hw with
      | dictionary hkeys'' hes'' =>
        have huv := (Dictionary.same_iff hkeys hkeys').1 huv
        have hvw := (Dictionary.same_iff hkeys' hkeys'').1 hvw
        refine (Dictionary.same_iff hkeys hkeys'').2 (huv.trans hvw fun hx hy hz => ?_)
        exact ih _ (Entries.mem_of_get? hx) (hes' _ (Entries.mem_of_get? hy))
          (hes'' _ (Entries.mem_of_get? hz))
      | _ => cases hvw
    | _ => cases huv
  | list _ ih =>
    cases hv with
    | list hvs =>
      cases hw with
      | list hws =>
        refine sameAll_iff.2 (forall₂_trans (sameAll_iff.1 huv) (sameAll_iff.1 hvw) ?_)
        exact fun x hx y hy z hz => ih x hx (hvs y hy) (hws z hz)
      | _ => cases hvw
    | _ => cases huv
  | part a _ ih =>
    cases hv with
    | part b hv =>
      cases hw with
      | part c hw =>
        simp only [same, Bool.and_eq_true, beq_iff_eq] at huv hvw ⊢
        exact ⟨ih hv hw huv.1 hvw.1, huv.2.trans hvw.2⟩
      | _ => cases hvw
    | _ => cases huv
  | _ => cases v <;> simp_all [same]

end Value

end ScriptValue
