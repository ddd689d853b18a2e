import ScriptValue.Coercion.Access
import ScriptValue.Date.Reader
import ScriptValue.Proofs.Block.Read
import ScriptValue.Proofs.Entries
import ScriptValue.Proofs.Value.Tree

namespace ScriptValue.Block

theorem trim_of_braces (t : Text) : Text.trim (['{'] ++ t ++ ['}']) = ['{'] ++ t ++ ['}'] := by
  have hopen : ¬ isWhiteSpace '{' = true := by decide
  have hclose : ¬ isWhiteSpace '}' = true := by decide
  rw [Text.trim, Text.trimBy, List.append_assoc, List.singleton_append,
    List.dropWhile_cons_of_neg hopen, ← List.cons_append]
  exact List.rdropWhile_concat_neg isWhiteSpace ('{' :: t) '}' hclose

theorem exists_braces_render (es : Entries Text) : ∃ t, render es = ['{'] ++ t ++ ['}'] := by
  by_cases h : es = []
  · exact ⟨[], by simp [h, render]⟩
  · exact ⟨['\n'] ++ body es ++ ['\n'], by simp [render_eq h]⟩

theorem trim_render (es : Entries Text) : (render es).trim = render es := by
  obtain ⟨t, ht⟩ := exists_braces_render es
  rw [ht, trim_of_braces]

theorem trimBreaks_render (es : Entries Text) : trimBreaks (render es) = render es := by
  obtain ⟨t, ht⟩ := exists_braces_render es
  rw [ht, trimBreaks_append_singleton _ (by decide)]

theorem isEmptyBlock_render {es : Entries Text} (h : es ≠ []) :
    isEmptyBlock (render es) = false := by
  simp [render_eq h, isEmptyBlock, body, indented]

theorem isBlock_render (es : Entries Text) : isBlock (render es) = true := by
  by_cases h : es = []
  · rw [h]
    rfl
  · have hopen : ['{', '\n'].isPrefixOf (render es) = true := by
      rw [List.isPrefixOf_iff_prefix, render_eq h, List.append_assoc]
      exact List.prefix_append _ _
    have hclose : ['\n', '}'].isSuffixOf (render es) = true := by
      rw [List.isSuffixOf_iff_suffix, render_eq h]
      exact List.suffix_append _ _
    simp [isBlock, hopen, hclose]

theorem continues_render (es : Entries Text) : Continues (render es) := by
  by_cases h : es = []
  · rw [h]
    exact List.forall_mem_nil _
  · have hlines : (render es).splitOn '\n' = ['{'] :: ((body es).splitOn '\n' ++ [['}']]) := by
      rw [render_eq h, List.append_assoc]
      simp [List.splitOn_cons_eq_if_modifyHead, List.splitOn_append_cons_self]
    rw [Continues, hlines, body, splitOn_indented]
    intro line hline
    simp only [List.tail_cons, List.mem_append, List.mem_map, List.mem_singleton] at hline
    rcases hline with ⟨l, -, rfl⟩ | rfl
    · rfl
    · rfl

section

variable [DateLibrary]

theorem readWhole_render {es : Entries Text} (hc : ∀ e ∈ es, Continues e.2)
    (ht : ∀ e ∈ es, trimBreaks e.2 = e.2) :
    readWhole (render es) =
      some (Entries.ofList (es.map fun e => (e.1, readValue readWhole e.2))) := by
  by_cases h : es = []
  · rw [h]
    rfl
  · have hinner : inner? (render es) = some (body es) := inner?_eq_some_iff.2 (render_eq h)
    rw [readWhole_eq, trim_render, isEmptyBlock_render h, hinner, Option.bind_some,
      readInner_body h hc, Entries.map_eq_self ht]
    rfl

structure Leaf (t : Text) : Prop where
  continues : Continues t
  trimmed : trimBreaks t = t
  plain : readValue readWhole t = .text t

mutual
/-- What is read where a value was written. -/
def reread : Value → Value
  | .text t => readValue readWhole (unifyBreaks t)
  | .dictionary es => .dictionary (rereadEntries es)
  | v => v
termination_by structural v => v

def rereadEntries : List (Text × Value) → List (Text × Value)
  | [] => []
  | (k, v) :: es => (k, reread v) :: rereadEntries es
termination_by structural es => es
end

theorem rereadEntries_eq (es : Dictionary) :
    rereadEntries es = es.map fun e => (e.1, reread e.2) := by
  induction es with
  | nil => rfl
  | cons e es ih => rw [rereadEntries, ih, List.map_cons]

theorem entryTexts_eq (a : Access) {es : Dictionary} {f : Text × Value → Text}
    (h : ∀ e ∈ es, a.textOf e.2 = .ok (f e)) :
    a.entryTexts es = .ok (es.map fun e => (e.1, f e)) := by
  induction es with
  | nil => rfl
  | cons e es ih =>
    have hes := ih fun e' he' => h e' (List.mem_cons_of_mem e he')
    simp only [Access.entryTexts, h e List.mem_cons_self, hes]
    rfl

theorem readWhole_of_readValue {t : Text} {d : Dictionary}
    (h : readValue readWhole t = .dictionary d) : readWhole t = some d := by
  unfold readValue at h
  split at h
  · split at h
    · next hd => rw [hd, Value.dictionary.inj h]
    · simp at h
  · simp at h

theorem exists_text_of_tree (a : Access) {v : Value} (h : v.Tree Leaf) :
    ∃ t, a.textOf v = .ok t ∧ Continues t ∧ trimBreaks t = t ∧
      readValue readWhole (unifyBreaks t) = reread v := by
  induction h with
  | @text t ht => exact ⟨t, rfl, ht.continues, ht.trimmed, rfl⟩
  | @dictionary es hn _ ih =>
    choose! f htext hcontinues htrimmed hread using ih
    let ts : Entries Text := es.map fun e => (e.1, f e)
    let us : Entries Text := es.map fun e => (e.1, unifyBreaks (f e))
    have hlast : ∀ e ∈ ts, e.2.getLast? ≠ some '\r' :=
      List.forall_mem_map.2 fun e he => getLast?_ne_of_trimmed (htrimmed e he)
    have hunify : unifyBreaks (render ts) = render us := by
      rw [unifyBreaks_render hlast, List.map_map]
      rfl
    have hus : readWhole (render us) = some (rereadEntries es) := by
      rw [readWhole_render (List.forall_mem_map.2 fun e he => (hcontinues e he).unifyBreaks)
        (List.forall_mem_map.2 fun e he => trimBreaks_unifyBreaks (htrimmed e he))]
      have hmap : (us.map fun e => (e.1, readValue readWhole e.2)) = rereadEntries es := by
        rw [rereadEntries_eq, List.map_map]
        exact List.map_congr_left fun e he => Prod.ext rfl (hread e he)
      have hkeys : (Entries.keys (rereadEntries es)).Nodup := by
        rw [rereadEntries_eq, Entries.keys, List.map_map]
        exact hn
      rw [hmap, Entries.ofList_of_nodup hkeys]
    refine ⟨render ts, ?_, continues_render ts, trimBreaks_render ts, ?_⟩
    · rw [Access.textOf, entryTexts_eq a htext]
      rfl
    · rw [hunify, readValue, if_pos (isBlock_render us), hus, reread]

theorem parse_textOf (a : Access) {d : Dictionary} (h : Value.Tree Leaf (.dictionary d)) :
    ∃ t, a.textOf (.dictionary d) = .ok t ∧ parse t = some (rereadEntries d) := by
  obtain ⟨t, htext, -, htrimmed, hread⟩ := exists_text_of_tree a h
  refine ⟨t, htext, ?_⟩
  rw [parse, trimBreaks_unifyBreaks htrimmed]
  exact readWhole_of_readValue (by rw [hread, reread])

theorem reread_of_pairFree {v : Value} (h : v.Tree Leaf) (hp : v.Tree PairFree) : reread v = v := by
  induction h with
  | text ht =>
    cases hp with
    | text hp => rw [reread, unifyBreaks_eq_self_iff.2 hp, ht.plain]
  | @dictionary es _ _ ih =>
    cases hp with
    | dictionary _ hp =>
      rw [reread, rereadEntries_eq, Entries.map_eq_self fun e he => ih e he (hp e he)]

theorem pairFree_of_same_reread {v : Value} (h : v.Tree Leaf) (hs : (reread v).same v = true) :
    v.Tree PairFree := by
  induction h with
  | @text t ht =>
    refine .text (unifyBreaks_eq_self_iff.1 ?_)
    rw [reread, readValue] at hs
    split at hs
    · split at hs
      · simp [Value.same] at hs
      · simpa [Value.same] using hs
    · simpa [Value.same] using hs
  | @dictionary es hn _ ih =>
    rw [reread, Value.same, Bool.and_eq_true, Value.sameEntries_iff, rereadEntries_eq,
      List.forall_mem_map] at hs
    refine .dictionary hn fun e he => ih e he ?_
    obtain ⟨w, hw, hsame⟩ := hs.2 e he
    rw [Entries.get?_of_mem hn he, Option.some.injEq] at hw
    rwa [← hw] at hsame

theorem tree_of_readValue {t : Text} (hc : Continues t) (ht : trimBreaks t = t)
    (hd : ∀ d, readWhole t = some d → Value.Tree Leaf (.dictionary d)) :
    (readValue readWhole t).Tree Leaf := by
  have hplain : readValue readWhole t = .text t → (readValue readWhole t).Tree Leaf := by
    intro h
    rw [h]
    exact .text ⟨hc, ht, h⟩
  by_cases hblock : isBlock t = true
  · cases hread : readWhole t with
    | none => exact hplain (by rw [readValue, if_pos hblock, hread])
    | some d =>
      rw [readValue, if_pos hblock, hread]
      exact hd d hread
  · exact hplain (by rw [readValue, if_neg hblock])

theorem tree_of_readWhole {t : Text} {d : Dictionary} (h : readWhole t = some d) :
    Value.Tree Leaf (.dictionary d) := by
-- on the length, as the blocks in a block are shorter than it
  induction hn : t.length using Nat.strong_induction_on generalizing t d with
  | _ n ih =>
    subst hn
    rw [readWhole_eq] at h
    split at h
    · obtain rfl := Option.some.inj h
      exact .dictionary List.nodup_nil (List.forall_mem_nil _)
    · obtain ⟨es, hes, rfl⟩ := Option.map_eq_some_iff.1 h
      refine .dictionary (Entries.nodup_keys_ofList _) fun f hf => ?_
      obtain ⟨e, he, rfl⟩ := List.mem_map.1 (Entries.mem_of_mem_ofList hf)
      obtain ⟨inner, -, hinner⟩ := Option.bind_eq_some_iff.1 hes
      obtain ⟨hcontinues, htrimmed, -⟩ := of_readInner hinner he
      exact tree_of_readValue hcontinues htrimmed fun d hd =>
        ih e.2.length (length_lt_of_mem_block hes he) hd rfl

/-- A text that comes back as it was from any block that it is written into. -/
structure Safe (t : Text) : Prop where
  noPair : ¬ ['\r', '\n'] <:+: t
  noBreakAtEnd : ∀ c ∈ t.getLast?, isBreak c = false
  noKeyLine : ∀ line ∈ (t.splitOn '\n').tail, keyLine line = none
  noBlock : ¬ (isBlock t = true ∧ (readWhole t).isSome = true)

theorem readValue_eq_text_iff {t : Text} :
    readValue readWhole t = .text t ↔ ¬ (isBlock t = true ∧ (readWhole t).isSome = true) := by
  rw [readValue]
  by_cases hblock : isBlock t = true
  · cases hread : readWhole t <;> simp [hblock]
  · simp [hblock]

theorem safe_iff {t : Text} : Safe t ↔ Leaf t ∧ PairFree t := by
  constructor
  · intro h
    have htrimmed := trimBreaks_eq_self_iff.2 h.noBreakAtEnd
    exact ⟨⟨h.noKeyLine, htrimmed, readValue_eq_text_iff.2 h.noBlock⟩, h.noPair⟩
  · rintro ⟨h, hp⟩
    exact ⟨hp, trimBreaks_eq_self_iff.1 h.trimmed, h.continues, readValue_eq_text_iff.1 h.plain⟩

theorem tree_of_parse {t : Text} {d : Dictionary} (h : parse t = some d) :
    Value.Tree Leaf (.dictionary d) :=
  tree_of_readWhole h

theorem rereadEntries_of_pairFree {d : Dictionary} (h : Value.Tree Leaf (.dictionary d))
    (hp : Value.Tree PairFree (.dictionary d)) : rereadEntries d = d :=
  Value.dictionary.inj (reread_of_pairFree h hp)

/--
A dictionary of texts and dictionaries comes back from its text as it was, with its keys in their
order, exactly if all its texts are safe.
-/
theorem exists_parse_eq_iff (a : Access) (d : Dictionary) :
    (∃ t, a.textOf (.dictionary d) = .ok t ∧ parse t = some d) ↔
      Value.Tree Safe (.dictionary d) := by
  constructor
  · rintro ⟨t, htext, hparse⟩
    have hleaf := tree_of_parse hparse
    obtain ⟨u, hu, hreread⟩ := parse_textOf a hleaf
    obtain rfl : t = u := Except.ok.inj (htext.symm.trans hu)
    have hsame : reread (.dictionary d) = .dictionary d := by
      rw [reread, Option.some.inj (hreread.symm.trans hparse)]
    have hpair := pairFree_of_same_reread hleaf (by rw [hsame]; exact hleaf.same_self)
    exact (hleaf.and hpair).imp fun _ => safe_iff.2
  · intro h
    have hleaf := h.imp fun _ ht => (safe_iff.1 ht).1
    have hpair := h.imp fun _ ht => (safe_iff.1 ht).2
    obtain ⟨t, htext, hparse⟩ := parse_textOf a hleaf
    exact ⟨t, htext, by rw [hparse, rereadEntries_of_pairFree hleaf hpair]⟩

/--
A dictionary that was read can be written and read again. The same comes back exactly if no text in
it has a return before a feed, and then its keys are in their order.
-/
theorem parse_textOf_of_parse (a : Access) {t : Text} {d : Dictionary} (h : parse t = some d) :
    ∃ u e, a.textOf (.dictionary d) = .ok u ∧ parse u = some e ∧
      (e.same d = true ↔ Value.Tree PairFree (.dictionary d)) ∧
      (Value.Tree PairFree (.dictionary d) → e = d) := by
  have hleaf := tree_of_parse h
  obtain ⟨u, htext, hparse⟩ := parse_textOf a hleaf
  have heq := rereadEntries_of_pairFree hleaf
  refine ⟨u, rereadEntries d, htext, hparse, ⟨pairFree_of_same_reread hleaf, fun hp => ?_⟩, heq⟩
  rw [heq hp]
  exact hleaf.same_self

end

theorem parse_textOf_of_parse_irregular :
    let t := ("\x7b\r\n\n\ta = 1\n\n\t\tb = 2\n\tc = \x7b\n\t\tq\n\t\x7d\n" ++
      "\ta = \x7b\n\t\t = 3\r\n\t\x7d\n\x7d\r\n").toList
    let d : Dictionary :=
      [(['a'], .dictionary [([], .text ['3'])]), (['c'], .text "\x7b\n\tq\n\x7d".toList)]
    parse t = some d ∧
      ∃ u e, (Context.ofConfig .standard).outer.textOf (.dictionary d) = .ok u ∧
        parse u = some e ∧ (e.same d = true ↔ Value.Tree PairFree (.dictionary d)) ∧
        (Value.Tree PairFree (.dictionary d) → e = d) := by
  intro t d
  have h : parse t = some d := rfl
  exact ⟨h, parse_textOf_of_parse _ h⟩

theorem not_same_of_two_returns :
    let d : Dictionary := [(['a'], .text "x\r\ny".toList)]
    parse "\x7b\n\ta = x\r\r\n\ty\n\x7d".toList = some d ∧
      ¬ ∃ u e, (Context.ofConfig .standard).outer.textOf (.dictionary d) = .ok u ∧
        parse u = some e ∧ e.same d = true := by
  refine ⟨rfl, ?_⟩
  rintro ⟨u, e, hu, he, hsame⟩
  obtain rfl : "\x7b\n\ta = x\r\n\ty\n\x7d".toList = u := Except.ok.inj hu
  obtain rfl : [(['a'], .text "x\ny".toList)] = e := Option.some.inj he
  exact absurd hsame (by decide)

end ScriptValue.Block
