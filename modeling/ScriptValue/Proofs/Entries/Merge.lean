import ScriptValue.Proofs.Entries

namespace ScriptValue.Entries

variable {α : Type} {es fs gs : Entries α}

theorem get?_eq_none_iff {key : Text} : get? key es = none ↔ key ∉ keys es := by
  induction es with
  | nil => simp
  | cons e es ih =>
    rw [get?, keys_cons, List.mem_cons, not_or, ← ih]
    split
    case isTrue h => simp [h]
    case isFalse h => simp [Ne.symm h]

theorem get?_of_notMem {key : Text} (h : key ∉ keys es) : get? key es = none :=
  get?_eq_none_iff.2 h

theorem exists_get?_of_mem {key : Text} (h : key ∈ keys es) : ∃ a, get? key es = some a :=
  Option.ne_none_iff_exists'.1 (mt get?_eq_none_iff.1 (not_not_intro h))

theorem ext_get? (hes : (keys es).Nodup) (hkeys : keys es = keys fs)
    (h : ∀ key, get? key es = get? key fs) : es = fs := by
  induction es generalizing fs with
  | nil => exact (List.map_eq_nil_iff.1 hkeys.symm).symm
  | cons e es ih =>
    cases fs with
    | nil => cases hkeys
    | cons f fs =>
      obtain ⟨key, a⟩ := e
      obtain ⟨key', b⟩ := f
      rw [keys_cons, keys_cons, List.cons.injEq] at hkeys
      obtain ⟨rfl, hrest⟩ := hkeys
      obtain ⟨hnew, hes⟩ := List.nodup_cons.1 hes
      have hfirst : a = b := by simpa [get?] using h key
      have hfs : es = fs := by
        refine ih hes hrest fun other => ?_
        by_cases hother : key = other
        · rw [← hother, get?_of_notMem hnew, get?_of_notMem (hrest ▸ hnew)]
        · simpa [get?, hother] using h other
      rw [hfirst, hfs]

theorem keys_insert (key : Text) (a : α) (es : Entries α) :
    keys (insert key a es) = if key ∈ keys es then keys es else keys es ++ [key] := by
  split
  case isTrue h => exact keys_insert_of_mem a h
  case isFalse h => rw [insert_of_notMem a h, keys_append, keys_cons, keys_nil]

theorem mem_keys_insert {key other : Text} {a : α} :
    other ∈ keys (insert key a es) ↔ other ∈ keys es ∨ other = key := by
  rw [keys_insert]
  split
  case isTrue h => exact ⟨.inl, fun hor => hor.elim id fun heq => heq ▸ h⟩
  case isFalse => rw [List.mem_append, List.mem_singleton]

theorem keys_erase (key : Text) (es : Entries α) : keys (erase key es) = (keys es).erase key := by
  induction es with
  | nil => rfl
  | cons e es ih =>
    rw [erase, keys_cons, List.erase_cons]
    by_cases h : e.1 = key
    · simp [h]
    · simp [h, ih]

theorem nodup_keys_erase (key : Text) (h : (keys es).Nodup) : (keys (erase key es)).Nodup := by
  rw [keys_erase]
  exact h.erase key

theorem get?_erase (key other : Text) (h : (keys es).Nodup) :
    get? other (erase key es) = if key = other then none else get? other es := by
  split
  case isTrue heq =>
    -- the key stood once, so that nothing is left under it
    refine get?_of_notMem ?_
    rw [keys_erase, ← heq]
    exact h.not_mem_erase
  case isFalse hne =>
    clear h
    induction es with
    | nil => rfl
    | cons e es ih =>
      rw [erase]
      by_cases h : e.1 = key
      · simp [get?, h, hne]
      · simp [get?, h, ih]

theorem mem_keys_insertAll {key : Text} :
    key ∈ keys (insertAll es fs) ↔ key ∈ keys es ∨ key ∈ keys fs := by
  induction fs generalizing es with
  | nil => simp [insertAll]
  | cons f fs ih =>
    change key ∈ keys (insertAll (insert f.1 f.2 es) fs) ↔ _
    rw [ih, mem_keys_insert, keys_cons, List.mem_cons, or_assoc]

theorem mem_keys_ofList {key : Text} : key ∈ keys (ofList es) ↔ key ∈ keys es := by
  rw [ofList, mem_keys_insertAll, keys_nil]
  exact or_iff_right List.not_mem_nil

section Merge

variable (hfs : (keys fs).Nodup)

include hfs

theorem get?_insertAll (es : Entries α) (key : Text) :
    get? key (insertAll es fs) = (get? key fs).or (get? key es) := by
  induction fs generalizing es with
  | nil => rfl
  | cons f fs ih =>
    obtain ⟨hnew, hfs⟩ := List.nodup_cons.1 hfs
    change get? key (insertAll (insert f.1 f.2 es) fs) = _
    rw [ih hfs, get?_insert, get?]
    split
    case isTrue h => rw [← h, get?_of_notMem hnew, Option.none_or, Option.some_or]
    case isFalse => rfl

theorem keys_insertAll (es : Entries α) :
    keys (insertAll es fs) = keys es ++ (keys fs).filter (· ∉ keys es) := by
  induction fs generalizing es with
  | nil => simp [insertAll]
  | cons f fs ih =>
    obtain ⟨hnew, hfs⟩ := List.nodup_cons.1 hfs
    change keys (insertAll (insert f.1 f.2 es) fs) = _
    rw [ih hfs, keys_insert, keys_cons]
    by_cases h : f.1 ∈ keys es
    · simp [h]
    · -- what follows `f` is under other keys, so it is new behind `f` just if it is new before
      have hrest : (keys fs).filter (· ∉ keys es ++ [f.1]) = (keys fs).filter (· ∉ keys es) := by
        refine List.filter_congr fun key hkey => ?_
        have hne : key ≠ f.1 := fun heq => hnew (heq ▸ hkey)
        simp [hne]
      rw [if_neg h, hrest, List.filter_cons_of_pos (by simpa using h), List.append_assoc,
        List.singleton_append]

theorem merge_eq_insertAll (es : Entries α) : merge es fs = insertAll es fs := by
  cases fs with
  | nil => cases es <;> rfl
  | cons f fs =>
    cases es with
    | nil => exact (ofList_of_nodup hfs).symm
    | cons e es => rfl

theorem get?_merge (es : Entries α) (key : Text) :
    get? key (merge es fs) = (get? key fs).or (get? key es) := by
  rw [merge_eq_insertAll hfs, get?_insertAll hfs]

theorem keys_merge (es : Entries α) :
    keys (merge es fs) = keys es ++ (keys fs).filter (· ∉ keys es) := by
  rw [merge_eq_insertAll hfs, keys_insertAll hfs]

theorem nodup_keys_merge (hes : (keys es).Nodup) : (keys (merge es fs)).Nodup := by
  rw [merge_eq_insertAll hfs]
  exact nodup_keys_insertAll fs hes

theorem merge_assoc (hes : (keys es).Nodup) (hgs : (keys gs).Nodup) :
    merge (merge es fs) gs = merge es (merge fs gs) := by
  have hmerge : (keys (merge fs gs)).Nodup := nodup_keys_merge hgs hfs
  refine ext_get? (nodup_keys_merge hgs (nodup_keys_merge hfs hes)) ?_ fun key => ?_
  · rw [keys_merge hgs, keys_merge hfs, keys_merge hmerge, keys_merge hgs, List.filter_append,
      List.append_assoc, List.filter_filter]
    congr 2
    refine List.filter_congr fun key _ => ?_
    by_cases h : key ∈ keys es <;> simp [h]
  · rw [get?_merge hgs, get?_merge hfs, get?_merge hmerge, get?_merge hgs, Option.or_assoc]

theorem merge_self : merge fs fs = fs := by
  refine ext_get? (nodup_keys_merge hfs hfs) ?_ fun key => ?_
  · rw [keys_merge hfs, List.append_right_eq_self, List.filter_eq_nil_iff]
    simp
  · rw [get?_merge hfs, Option.or_self]

end Merge

theorem merge_nil (es : Entries α) : merge es [] = es := by
  cases es <;> rfl

theorem nil_merge (fs : Entries α) : merge [] fs = fs := by
  cases fs <;> rfl

theorem mem_of_mem_merge {e : Text × α} (h : e ∈ merge es fs) : e ∈ es ∨ e ∈ fs := by
  unfold merge at h
  split at h
  · exact .inl h
  · exact .inr h
  · exact mem_of_mem_insertAll h

end ScriptValue.Entries
