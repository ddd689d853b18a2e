import ScriptValue.Entries
import Mathlib.Data.List.Nodup

namespace ScriptValue.Entries

variable {α : Type}

@[simp] theorem keys_nil : keys ([] : Entries α) = [] := rfl

@[simp] theorem keys_cons (e : Text × α) (es : Entries α) : keys (e :: es) = e.1 :: keys es := rfl

@[simp] theorem keys_append (es fs : Entries α) : keys (es ++ fs) = keys es ++ keys fs :=
  List.map_append

theorem map_eq_self {f : Text × α → α} {es : Entries α} (h : ∀ e ∈ es, f e = e.2) :
    (es.map fun e => (e.1, f e)) = es := by
  induction es with
  | nil => rfl
  | cons e es ih =>
    rw [List.forall_mem_cons] at h
    rw [List.map_cons, h.1, ih h.2]

theorem insert_of_notMem {key : Text} (a : α) {es : Entries α} (h : key ∉ keys es) :
    insert key a es = es ++ [(key, a)] := by
  induction es with
  | nil => rfl
  | cons e es ih =>
    simp only [keys_cons, List.mem_cons, not_or] at h
    simp [insert, Ne.symm h.1, ih h.2]

theorem keys_insert_of_mem {key : Text} (a : α) {es : Entries α} (h : key ∈ keys es) :
    keys (insert key a es) = keys es := by
  induction es with
  | nil => simp at h
  | cons e es ih =>
    by_cases hk : e.1 = key
    · simp [insert, hk]
    · have hmem : key ∈ keys es := by simpa [Ne.symm hk] using h
      simp [insert, hk, ih hmem]

theorem nodup_keys_insert (key : Text) (a : α) {es : Entries α} (h : (keys es).Nodup) :
    (keys (insert key a es)).Nodup := by
  by_cases hk : key ∈ keys es
  · rwa [keys_insert_of_mem a hk]
  · rw [insert_of_notMem a hk, keys_append]
    exact h.append (by simp) (by simpa using hk)

theorem insert_insert (key : Text) (a b : α) (es : Entries α) :
    insert key b (insert key a es) = insert key b es := by
  induction es with
  | nil => simp [insert]
  | cons e es ih =>
    by_cases hk : e.1 = key
    · simp [insert, hk]
    · simp [insert, hk, ih]

theorem mem_of_mem_insert {e : Text × α} {key : Text} {a : α} {es : Entries α}
    (h : e ∈ insert key a es) : e = (key, a) ∨ e ∈ es := by
  induction es with
  | nil => simpa [insert] using h
  | cons f es ih =>
    by_cases hk : f.1 = key
    · simp only [insert, hk, if_true, List.mem_cons] at h
      exact h.imp_right (List.mem_cons_of_mem f)
    · simp only [insert, hk, if_false, List.mem_cons] at h
      rcases h with h | h
      · exact .inr (by simp [h])
      · exact (ih h).imp_right (List.mem_cons_of_mem f)

theorem mem_of_mem_erase {e : Text × α} {key : Text} {es : Entries α} (h : e ∈ erase key es) :
    e ∈ es := by
  induction es with
  | nil => exact h
  | cons f es ih =>
    rw [erase] at h
    split at h
    · exact List.mem_cons_of_mem f h
    · cases List.mem_cons.1 h with
      | inl heq => exact heq ▸ List.mem_cons_self
      | inr h => exact List.mem_cons_of_mem f (ih h)

theorem mem_of_get? {key : Text} {a : α} {es : Entries α} (h : get? key es = some a) :
    (key, a) ∈ es := by
  induction es with
  | nil => cases h
  | cons f es ih =>
    rw [get?] at h
    split at h
    case isTrue hkey =>
      cases h
      exact hkey ▸ List.mem_cons_self
    case isFalse => exact List.mem_cons_of_mem f (ih h)

theorem nodup_keys_insertAll {es : Entries α} (new : Entries α) (h : (keys es).Nodup) :
    (keys (insertAll es new)).Nodup := by
  induction new generalizing es with
  | nil => exact h
  | cons e new ih => exact ih (nodup_keys_insert e.1 e.2 h)

theorem nodup_keys_ofList (es : Entries α) : (keys (ofList es)).Nodup :=
  nodup_keys_insertAll es List.nodup_nil

theorem mem_of_mem_insertAll {e : Text × α} {es new : Entries α} (h : e ∈ insertAll es new) :
    e ∈ es ∨ e ∈ new := by
  induction new generalizing es with
  | nil => exact .inl h
  | cons f new ih =>
    rcases ih h with h | h
    · rcases mem_of_mem_insert h with rfl | h
      · exact .inr (by simp)
      · exact .inl h
    · exact .inr (List.mem_cons_of_mem f h)

theorem mem_of_mem_ofList {e : Text × α} {es : Entries α} (h : e ∈ ofList es) : e ∈ es := by
  simpa using mem_of_mem_insertAll h

theorem insertAll_of_nodup {es new : Entries α} (h : (keys (es ++ new)).Nodup) :
    insertAll es new = es ++ new := by
  induction new generalizing es with
  | nil => simp [insertAll]
  | cons e new ih =>
    have hnew : e.1 ∉ keys es := by
      rw [keys_append, keys_cons, List.nodup_middle, List.nodup_cons] at h
      exact fun hmem => h.1 (List.mem_append_left _ hmem)
    calc
      insertAll es (e :: new) = insertAll (es.insert e.1 e.2) new := rfl
      _ = insertAll (es ++ [e]) new := by rw [insert_of_notMem e.2 hnew]
      _ = es ++ e :: new := by rw [ih (by simpa using h)]; simp

theorem ofList_of_nodup {es : Entries α} (h : (keys es).Nodup) : ofList es = es := by
  have hinsert : insertAll [] es = [] ++ es := insertAll_of_nodup h
  rw [ofList, hinsert, List.nil_append]

theorem get?_of_mem {key : Text} {a : α} {es : Entries α} (hn : (keys es).Nodup)
    (h : (key, a) ∈ es) : get? key es = some a := by
  induction es with
  | nil => simp at h
  | cons e es ih =>
    rw [keys_cons, List.nodup_cons] at hn
    rcases List.mem_cons.1 h with rfl | h
    · simp [get?]
    · have hne : e.1 ≠ key := fun he => hn.1 (he ▸ List.mem_map_of_mem h)
      simpa [get?, hne] using ih hn.2 h

end ScriptValue.Entries
