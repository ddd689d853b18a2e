import ScriptValue.Value.Block
import Mathlib.Data.List.Basic

namespace ScriptValue.Block

theorem readQuoted_cons {c : Char} (t : Text) (hquote : c ≠ '"') (hslash : c ≠ '\\') :
    readQuoted (c :: t) = (readQuoted t).map fun p => (c :: p.1, p.2) := by
  rw [readQuoted]
  · exact hquote
  · exact fun h _ => hslash h
  · exact fun _ _ h _ => hslash h

theorem readQuoted_escape_append (c : Char) (t : Text) :
    readQuoted (escape c ++ t) = (readQuoted t).map fun p => (c :: p.1, p.2) := by
  unfold escape
  split <;> simp [readQuoted, unescape]
  exact readQuoted_cons t ‹_› ‹_›

theorem readQuoted_escape (key rest : Text) :
    readQuoted (key.flatMap escape ++ '"' :: (separator ++ rest)) = some (key, rest) := by
  induction key with
  | nil => simp [readQuoted]
  | cons c key ih => simp [readQuoted_escape_append, ih]

theorem splitSeparator_append {key : Text} (rest : Text) (h : '=' ∉ key) :
    splitSeparator (key ++ (separator ++ rest)) = some (key, rest) := by
  induction key with
  | nil => simp [splitSeparator, separator, List.isPrefixOf?]
  | cons c key ih =>
    have hkey : '=' ∉ key := fun hmem => h (List.mem_cons_of_mem c hmem)
    -- A separator one place early would put its sign into the key, or into the blank after it.
    have hearly : separator.isPrefixOf? (c :: (key ++ (separator ++ rest))) = none := by
      rw [Option.eq_none_iff_forall_ne_some]
      intro t ht
      rw [List.isPrefixOf?_eq_some_iff_append_eq] at ht
      cases key with
      | nil => simp [separator] at ht
      | cons d key => simp_all [separator]
    simp [splitSeparator, hearly, ih hkey]

theorem renderKey_of_needsQuotes {key : Text} (h : needsQuotes key = true) :
    renderKey key = '"' :: key.flatMap escape ++ ['"'] := if_pos h

theorem renderKey_of_not_needsQuotes {key : Text} (h : needsQuotes key = false) :
    renderKey key = key := if_neg (by simp [h])

theorem isSpecial_of_not_needsQuotes {key : Text} (h : needsQuotes key = false) :
    ∀ c ∈ key, isSpecial c = false := by
  simp only [needsQuotes, Bool.or_eq_false_iff, List.any_eq_false] at h
  simpa using h.2

theorem notMem_escape {c : Char} (hc : c = '\n' ∨ c = '\r' ∨ c = '\t') (d : Char) :
    c ∉ escape d := by
  unfold escape
  rcases hc with rfl | rfl | rfl <;> split <;> simp_all [eq_comm]

theorem notMem_renderKey {c : Char} (hc : c = '\n' ∨ c = '\r' ∨ c = '\t') (key : Text) :
    c ∉ renderKey key := by
  cases h : needsQuotes key with
  | true =>
    rw [renderKey_of_needsQuotes h]
    have hquote : c ≠ '"' := by rcases hc with rfl | rfl | rfl <;> decide
    simp [hquote, notMem_escape hc]
  | false =>
    rw [renderKey_of_not_needsQuotes h]
    intro hmem
    have hspecial := isSpecial_of_not_needsQuotes h c hmem
    rcases hc with rfl | rfl | rfl <;> simp [isSpecial] at hspecial

theorem exists_cons_of_not_needsQuotes {key : Text} (h : needsQuotes key = false) :
    ∃ c cs, key = c :: cs ∧ c ≠ '\t' ∧ c ≠ '"' := by
  cases key with
  | nil => simp [needsQuotes] at h
  | cons c cs =>
    have hc := isSpecial_of_not_needsQuotes h c List.mem_cons_self
    refine ⟨c, cs, rfl, ?_, ?_⟩ <;> rintro rfl <;> simp [isSpecial] at hc

theorem keyLine_renderKey (key rest : Text) :
    keyLine (renderKey key ++ (separator ++ rest)) = some (key, rest) := by
  cases h : needsQuotes key with
  | true =>
    rw [renderKey_of_needsQuotes h]
    simpa [keyLine] using readQuoted_escape key rest
  | false =>
    have hsign : '=' ∉ key := fun hmem => by
      simpa [isSpecial] using isSpecial_of_not_needsQuotes h _ hmem
    rw [renderKey_of_not_needsQuotes h, ← splitSeparator_append rest hsign]
    obtain ⟨c, cs, rfl, htab, hquote⟩ := exists_cons_of_not_needsQuotes h
    simp [keyLine, htab, hquote]

/--
A rendered key stays on one line and can be told from what follows it: no two keys, with whatever is
behind the separator, make the same line.
-/
theorem renderKey_unambiguous (key rest : Text) :
    ('\n' ∉ renderKey key ∧ '\r' ∉ renderKey key ∧ '\t' ∉ renderKey key) ∧
    keyLine (renderKey key ++ separator ++ rest) = some (key, rest) ∧
    ∀ key' rest' : Text,
      renderKey key' ++ separator ++ rest' = renderKey key ++ separator ++ rest ↔
        key' = key ∧ rest' = rest := by
  have hread (key rest : Text) :
      keyLine (renderKey key ++ separator ++ rest) = some (key, rest) := by
    rw [List.append_assoc, keyLine_renderKey]
  refine ⟨⟨notMem_renderKey (.inl rfl) key, notMem_renderKey (.inr (.inl rfl)) key,
    notMem_renderKey (.inr (.inr rfl)) key⟩, hread key rest, fun key' rest' => ⟨fun h => ?_, ?_⟩⟩
  · have hline := congrArg keyLine h
    rw [hread, hread] at hline
    exact Prod.mk.inj (Option.some.inj hline)
  · rintro ⟨rfl, rfl⟩
    rfl

theorem ne_slash_of {c : Char} {t : Text} (hend : c = '\\' → t = [] → False)
    (hslash : ∀ d u, c = '\\' → t = d :: u → False) : c ≠ '\\' := by
  rintro rfl
  cases t with
  | nil => exact hend rfl rfl
  | cons d t => exact hslash d t rfl rfl

theorem readQuoted_append {line key rest : Text} (more : Text)
    (h : readQuoted line = some (key, rest)) :
    readQuoted (line ++ more) = some (key, rest ++ more) := by
  induction line using readQuoted.induct generalizing key with
  | case1 => simp [readQuoted] at h
  | case2 t =>
    simp only [readQuoted, Option.map_eq_some_iff, Prod.mk.injEq,
      List.isPrefixOf?_eq_some_iff_append_eq] at h
    obtain ⟨r, rfl, rfl, rfl⟩ := h
    simp [readQuoted]
  | case3 => simp [readQuoted] at h
  | case4 c t ih =>
    simp only [readQuoted, Option.map_eq_some_iff, Prod.mk.injEq] at h
    obtain ⟨⟨k, r⟩, hread, rfl, rfl⟩ := h
    simp [readQuoted, ih hread]
  | case5 c t hquote hend hslash ih =>
    have hne := ne_slash_of hend hslash
    rw [readQuoted_cons t hquote hne] at h
    simp only [Option.map_eq_some_iff, Prod.mk.injEq] at h
    obtain ⟨⟨k, r⟩, hread, rfl, rfl⟩ := h
    rw [List.cons_append, readQuoted_cons _ hquote hne, ih hread]
    rfl

theorem eq_append_of_splitSeparator {line key rest : Text}
    (h : splitSeparator line = some (key, rest)) : line = key ++ (separator ++ rest) := by
  induction line generalizing key with
  | nil => simp [splitSeparator] at h
  | cons c line ih =>
    cases hc : separator.isPrefixOf? (c :: line) with
    | some t =>
      simp only [splitSeparator, hc, Option.some.injEq, Prod.mk.injEq] at h
      obtain ⟨rfl, rfl⟩ := h
      exact (List.isPrefixOf?_eq_some_iff_append_eq.1 hc).symm
    | none =>
      simp only [splitSeparator, hc, Option.map_eq_some_iff, Prod.mk.injEq] at h
      obtain ⟨⟨k, r⟩, hline, rfl, rfl⟩ := h
      rw [ih hline, List.cons_append]

theorem isPrefixOf?_append_eq_none {s t : Text} (more : Text) (h : s.isPrefixOf? t = none)
    (hlength : s.length ≤ t.length) : s.isPrefixOf? (t ++ more) = none := by
  rw [Option.eq_none_iff_forall_ne_some]
  intro u hu
  rw [List.isPrefixOf?_eq_some_iff_append_eq] at hu
  obtain ⟨v, hv⟩ := List.prefix_of_prefix_length_le ⟨u, hu⟩ (List.prefix_append t more) hlength
  rw [List.isPrefixOf?_eq_some_iff_append_eq.2 hv] at h
  exact Option.some_ne_none v h

theorem splitSeparator_append_right {line key rest : Text} (more : Text)
    (h : splitSeparator line = some (key, rest)) :
    splitSeparator (line ++ more) = some (key, rest ++ more) := by
  induction line generalizing key with
  | nil => simp [splitSeparator] at h
  | cons c line ih =>
    cases hc : separator.isPrefixOf? (c :: line) with
    | some t =>
      simp only [splitSeparator, hc, Option.some.injEq, Prod.mk.injEq] at h
      obtain ⟨rfl, rfl⟩ := h
      rw [List.isPrefixOf?_eq_some_iff_append_eq] at hc
      have hnil : '=' ∉ ([] : Text) := List.not_mem_nil
      simpa [← hc] using splitSeparator_append (t ++ more) hnil
    | none =>
      simp only [splitSeparator, hc, Option.map_eq_some_iff, Prod.mk.injEq] at h
      obtain ⟨⟨k, r⟩, hline, rfl, rfl⟩ := h
      -- The separator further on is as long as one here, so one here would not reach into `more`.
      have hlength : separator.length ≤ (c :: line).length := by
        rw [eq_append_of_splitSeparator hline]
        simp
        omega
      have hnone : separator.isPrefixOf? (c :: (line ++ more)) = none :=
        isPrefixOf?_append_eq_none more hc hlength
      simp [splitSeparator, hnone, ih hline]

theorem keyLine_append {line key rest : Text} (more : Text) (h : keyLine line = some (key, rest)) :
    keyLine (line ++ more) = some (key, rest ++ more) := by
  unfold keyLine at h
  split at h
  · simp at h
  · exact readQuoted_append more h
  · next htab hquote =>
    cases line with
    | nil => simp [splitSeparator] at h
    | cons c line =>
      have hc : c ≠ '\t' ∧ c ≠ '"' :=
        ⟨fun he => htab line (he ▸ rfl), fun he => hquote line (he ▸ rfl)⟩
      rw [← splitSeparator_append_right more h]
      simp [keyLine, hc.1, hc.2]

theorem keyLine_eq_none_of_prefix {line longer : Text} (hp : line <+: longer)
    (h : keyLine longer = none) : keyLine line = none := by
  obtain ⟨more, rfl⟩ := hp
  cases hline : keyLine line with
  | none => rfl
  | some p => simp [keyLine_append more hline] at h

end ScriptValue.Block
