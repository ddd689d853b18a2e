import ScriptValue.Proofs.Block.Lines

namespace ScriptValue.Block

def indented (t : Text) : Text := '\t' :: t.flatMap fun c => if c = '\n' then ['\n', '\t'] else [c]

theorem indent_eq (t : Text) : indent t = indented t ++ ['\n'] := by
  induction t with
  | nil => rfl
  | cons c t ih =>
    obtain ⟨l, ls, ht⟩ := List.exists_cons_of_ne_nil (List.splitOn_ne_nil '\n' t)
    rw [indent, ht] at ih
    rw [indent, List.splitOn_cons_eq_if_modifyHead, ht]
    by_cases hc : c = '\n' <;> simp_all [indented]

theorem splitOn_indented (t : Text) :
    (indented t).splitOn '\n' = (t.splitOn '\n').map ('\t' :: ·) := by
  induction t with
  | nil => rfl
  | cons c t ih =>
    simp only [indented, List.splitOn_cons_eq_if_modifyHead, List.flatMap_cons] at ih ⊢
    by_cases hc : c = '\n'
    · simp_all [List.splitOn_cons_eq_if_modifyHead]
    · simp only [hc, if_false, beq_iff_eq, List.singleton_append,
        List.splitOn_cons_eq_if_modifyHead] at ih ⊢
      generalize List.splitOn '\n' (List.flatMap _ t) = ms, t.splitOn '\n' = ls at ih ⊢
      cases ms <;> cases ls <;> simp_all

theorem indented_injective : Function.Injective indented := by
  intro t u h
  have hlines : (t.splitOn '\n').map ('\t' :: ·) = (u.splitOn '\n').map ('\t' :: ·) := by
    rw [← splitOn_indented, ← splitOn_indented, h]
  have hsplit := List.map_injective_iff.2 List.cons_injective hlines
  calc
    t = ['\n'].intercalate (t.splitOn '\n') := (List.intercalate_splitOn '\n').symm
    _ = ['\n'].intercalate (u.splitOn '\n') := congrArg _ hsplit
    _ = u := List.intercalate_splitOn '\n'

def body (es : Entries Text) : Text := indented (['\n'].intercalate (es.map renderEntry))

theorem render_eq {es : Entries Text} (h : es ≠ []) :
    render es = ['{', '\n'] ++ body es ++ ['\n', '}'] := by
  rw [render, if_neg h, indent_eq, body]
  simp

def entryLines (es : Entries Text) : List Text := (es.map renderEntry).flatMap (·.splitOn '\n')

theorem splitOn_body {es : Entries Text} (h : es ≠ []) :
    (body es).splitOn '\n' = (entryLines es).map ('\t' :: ·) := by
  rw [body, splitOn_indented, splitOn_intercalate_flatMap (by simpa using h), entryLines]

theorem splitOn_renderEntry {e : Text × Text} {rest : Text} {more : List Text}
    (h : e.2.splitOn '\n' = rest :: more) :
    (renderEntry e).splitOn '\n' = (renderKey e.1 ++ separator ++ rest) :: more := by
  have hkey : '\n' ∉ renderKey e.1 ++ separator := by simp [notMem_renderKey, separator]
  rw [renderEntry, splitOn_append_of_notMem _ hkey, h, List.modifyHead_cons]

theorem render_singleton_injective (k : Text) : Function.Injective fun t => render [(k, t)] := by
  intro t u h
  simp only [render_eq (List.cons_ne_nil _ _), body] at h
  have hbody : indented (renderEntry (k, t)) = indented (renderEntry (k, u)) := by simpa using h
  simpa [renderEntry] using indented_injective hbody

theorem unifyBreaks_cons {c : Char} {t : Text} (h : c ≠ '\r' ∨ t.head? ≠ some '\n') :
    unifyBreaks (c :: t) = c :: unifyBreaks t := by
  rw [unifyBreaks]
  rintro u rfl rfl
  simp at h

theorem ne_return_or_head?_ne {c : Char} {t : Text}
    (h : ∀ u, c = '\r' → t = '\n' :: u → False) : c ≠ '\r' ∨ t.head? ≠ some '\n' := by
  cases t with
  | nil => simp
  | cons d t =>
    by_contra! hcd
    exact h t hcd.1 (by simpa using hcd.2)

theorem unifyBreaks_append {s : Text} (t : Text) (h : s.getLast? ≠ some '\r') :
    unifyBreaks (s ++ t) = unifyBreaks s ++ unifyBreaks t := by
  induction s using unifyBreaks.induct with
  | case1 s ih =>
    have hs : s.getLast? ≠ some '\r' := by
      cases s with
      | nil => simp
      | cons d s => simpa using h
    simp [unifyBreaks, ih hs]
  | case2 c s hpair ih =>
    have hcs := ne_return_or_head?_ne hpair
    cases s with
    | nil =>
      have hc : c ≠ '\r' := by simpa using h
      simp [unifyBreaks_cons (.inl hc), unifyBreaks]
    | cons d s =>
      have hd : unifyBreaks (d :: s ++ t) = unifyBreaks (d :: s) ++ unifyBreaks t :=
        ih (by simpa using h)
      have hcst : c ≠ '\r' ∨ (d :: s ++ t).head? ≠ some '\n' := by simpa using hcs
      rw [List.cons_append, unifyBreaks_cons hcst, hd, unifyBreaks_cons hcs, List.cons_append]
  | case3 => rfl

theorem unifyBreaks_of_notMem {t : Text} (h : '\r' ∉ t) : unifyBreaks t = t := by
  induction t with
  | nil => rfl
  | cons c t ih =>
    rw [List.mem_cons, not_or] at h
    rw [unifyBreaks_cons (.inl (Ne.symm h.1)), ih h.2]

theorem getLast?_unifyBreaks (t : Text) : (unifyBreaks t).getLast? = t.getLast? := by
  induction t using unifyBreaks.induct with
  | case1 t ih =>
    rw [unifyBreaks, List.getLast?_cons, List.getLast?_cons, List.getLast?_cons, ih]
    cases t.getLast? <;> rfl
  | case2 c t hpair ih =>
    rw [unifyBreaks_cons (ne_return_or_head?_ne hpair), List.getLast?_cons, List.getLast?_cons, ih]
  | case3 => rfl

theorem getLast?_ne_of_trimmed {t : Text} (h : trimBreaks t = t) : t.getLast? ≠ some '\r' :=
  fun hlast => by simpa [isBreak] using trimBreaks_eq_self_iff.1 h '\r' hlast

theorem trimBreaks_unifyBreaks {t : Text} (h : trimBreaks t = t) :
    trimBreaks (unifyBreaks t) = unifyBreaks t := by
  rw [trimBreaks_eq_self_iff] at h ⊢
  rwa [getLast?_unifyBreaks]

/-- Whether no return stands before a feed. -/
def PairFree (t : Text) : Prop := ¬ ['\r', '\n'] <:+: t

theorem length_unifyBreaks_le (t : Text) : (unifyBreaks t).length ≤ t.length := by
  induction t using unifyBreaks.induct with
  | case1 t ih =>
    simp only [unifyBreaks, List.length_cons]
    omega
  | case2 c t hpair ih =>
    simpa [unifyBreaks_cons (ne_return_or_head?_ne hpair)] using ih
  | case3 => exact Nat.le_refl 0

theorem unifyBreaks_eq_self_iff {t : Text} : unifyBreaks t = t ↔ PairFree t := by
  induction t using unifyBreaks.induct with
  | case1 t ih =>
    have hlength := length_unifyBreaks_le t
    refine ⟨fun h => ?_, fun h => absurd (List.prefix_append ['\r', '\n'] t).isInfix h⟩
    have := congrArg List.length h
    simp only [unifyBreaks, List.length_cons] at this
    omega
  | case2 c t hcons ih =>
    have hpair : ¬ ['\r', '\n'] <+: c :: t := by
      rintro ⟨u, hu⟩
      simp only [List.cons_append, List.nil_append, List.cons.injEq] at hu
      exact hcons u hu.1.symm hu.2.symm
    rw [unifyBreaks_cons (ne_return_or_head?_ne hcons), PairFree, List.infix_cons_iff, not_or,
      ← PairFree, ← ih]
    simp [hpair]
  | case3 => simp [unifyBreaks, PairFree]

theorem unifyBreaks_indented (t : Text) : unifyBreaks (indented t) = indented (unifyBreaks t) := by
  have htab : '\t' ≠ '\r' := by decide
  have hfeed : '\n' ≠ '\r' := by decide
  rw [indented, unifyBreaks_cons (.inl htab), indented, List.cons.injEq]
  refine ⟨rfl, ?_⟩
  induction t using unifyBreaks.induct with
  | case1 t ih => simp [unifyBreaks, unifyBreaks_cons, ih]
  | case2 c t hpair ih =>
    have hct := ne_return_or_head?_ne hpair
    rw [unifyBreaks_cons hct, List.flatMap_cons, List.flatMap_cons, ← ih]
    by_cases hc : c = '\n'
    · simp [hc, unifyBreaks_cons]
    · have hhead : (t.flatMap fun c => if c = '\n' then ['\n', '\t'] else [c]).head? = t.head? := by
        cases t with
        | nil => rfl
        | cons d t => by_cases hd : d = '\n' <;> simp [hd]
      simp [hc, unifyBreaks_cons (hhead ▸ hct)]
  | case3 => rfl

theorem getLast?_append_ne {c : Char} {s t : Text} (hs : s.getLast? ≠ some c)
    (ht : t.getLast? ≠ some c) : (s ++ t).getLast? ≠ some c := by
  rw [List.getLast?_append]
  cases h : t.getLast? with
  | none => simpa using hs
  | some d => simpa [h] using ht

theorem getLast?_indented_ne {t : Text} (h : t.getLast? ≠ some '\r') :
    (indented t).getLast? ≠ some '\r' := by
  rcases List.eq_nil_or_concat t with rfl | ⟨s, c, rfl⟩
  · simp [indented]
  · have hc : c ≠ '\r' := by simpa using h
    rw [indented, List.concat_eq_append, List.flatMap_append, ← List.cons_append,
      List.getLast?_append]
    by_cases hfeed : c = '\n' <;> simp [hfeed, hc]

theorem getLast?_intercalate_ne {ts : List Text} (h : ∀ t ∈ ts, t.getLast? ≠ some '\r') :
    (['\n'].intercalate ts).getLast? ≠ some '\r' := by
  induction ts with
  | nil => simp
  | cons t ts ih =>
    have ht := h t List.mem_cons_self
    have hts := ih fun u hu => h u (List.mem_cons_of_mem t hu)
    cases ts with
    | nil => simpa using ht
    | cons u ts =>
      rw [List.intercalate_cons_cons]
      exact getLast?_append_ne (getLast?_append_ne ht (by simp)) hts

theorem unifyBreaks_intercalate {ts : List Text} (h : ∀ t ∈ ts, t.getLast? ≠ some '\r') :
    unifyBreaks (['\n'].intercalate ts) = ['\n'].intercalate (ts.map unifyBreaks) := by
  induction ts with
  | nil => rfl
  | cons t ts ih =>
    have ht := h t List.mem_cons_self
    have hts := ih fun u hu => h u (List.mem_cons_of_mem t hu)
    cases ts with
    | nil => simp
    | cons u ts =>
      have hfeed : unifyBreaks ['\n'] = ['\n'] := rfl
      rw [List.intercalate_cons_cons, unifyBreaks_append _ (getLast?_append_ne ht (by simp)),
        unifyBreaks_append _ ht, hfeed, hts]
      simp only [List.map_cons, List.intercalate_cons_cons]

theorem getLast?_renderEntry_ne {e : Text × Text} (h : e.2.getLast? ≠ some '\r') :
    (renderEntry e).getLast? ≠ some '\r' := by
  have hkey : (renderKey e.1 ++ separator).getLast? ≠ some '\r' := by simp [separator]
  exact getLast?_append_ne hkey h

theorem unifyBreaks_renderEntry (e : Text × Text) :
    unifyBreaks (renderEntry e) = renderEntry (e.1, unifyBreaks e.2) := by
  have hkey : '\r' ∉ renderKey e.1 ++ separator := by simp [notMem_renderKey, separator]
  rw [renderEntry, unifyBreaks_append, unifyBreaks_of_notMem hkey, renderEntry]
  exact fun hlast => hkey (List.mem_of_getLast? hlast)

theorem unifyBreaks_render {es : Entries Text} (h : ∀ e ∈ es, e.2.getLast? ≠ some '\r') :
    unifyBreaks (render es) = render (es.map fun e => (e.1, unifyBreaks e.2)) := by
  by_cases hes : es = []
  · subst hes
    rfl
  · have hentries : ∀ t ∈ es.map renderEntry, t.getLast? ≠ some '\r' := by
      simp only [List.forall_mem_map]
      exact fun e he => getLast?_renderEntry_ne (h e he)
    have hlast : (body es).getLast? ≠ some '\r' :=
      getLast?_indented_ne (getLast?_intercalate_ne hentries)
    have hopen : ['{', '\n'].getLast? ≠ some '\r' := by decide
    have hbody : unifyBreaks (body es) = body (es.map fun e => (e.1, unifyBreaks e.2)) := by
      rw [body, unifyBreaks_indented, unifyBreaks_intercalate hentries, body]
      simp [Function.comp_def, unifyBreaks_renderEntry]
    rw [render_eq hes, render_eq (by simpa using hes),
      unifyBreaks_append _ (getLast?_append_ne hopen hlast), unifyBreaks_append _ hopen, hbody]
    rfl

theorem mapM_unindent (lines : List Text) :
    (lines.map ('\t' :: ·)).mapM unindent = some lines := by
  induction lines with
  | nil => rfl
  | cons l ls ih => simp [unindent, ih]

theorem group_cons_of_none {line : Text} (lines : List Text) (h : keyLine line = none) :
    group (line :: lines) = (line :: (group lines).1, (group lines).2) := by
  simp [group, h]

theorem group_cons_of_some {line key rest : Text} (lines : List Text)
    (h : keyLine line = some (key, rest)) :
    group (line :: lines) = ([], (key, rest :: (group lines).1) :: (group lines).2) := by
  simp [group, h]

theorem group_append {lines : List Text} (h : ∀ l ∈ lines, keyLine l = none) (rest : List Text) :
    group (lines ++ rest) = (lines ++ (group rest).1, (group rest).2) := by
  induction lines with
  | nil => rfl
  | cons l ls ih =>
    have hls := ih fun m hm => h m (List.mem_cons_of_mem l hm)
    rw [List.cons_append, group_cons_of_none _ (h l List.mem_cons_self), hls]
    rfl

theorem group_entry {e : Text × Text} (h : Continues e.2) (rest : List Text) :
    group ((renderEntry e).splitOn '\n' ++ rest) =
      ([], (e.1, e.2.splitOn '\n' ++ (group rest).1) :: (group rest).2) := by
  obtain ⟨l, ls, he⟩ := List.exists_cons_of_ne_nil (List.splitOn_ne_nil '\n' e.2)
  have hls : ∀ line ∈ ls, keyLine line = none := by simpa [Continues, he] using h
  have hline : keyLine (renderKey e.1 ++ separator ++ l) = some (e.1, l) := by
    rw [List.append_assoc, keyLine_renderKey]
  rw [splitOn_renderEntry he, he, List.cons_append, group_cons_of_some _ hline, group_append hls]
  rfl

theorem group_entries {es : Entries Text} (h : ∀ e ∈ es, Continues e.2) :
    group (entryLines es) = ([], es.map fun e => (e.1, e.2.splitOn '\n')) := by
  induction es with
  | nil => rfl
  | cons e es ih =>
    have hes := ih fun f hf => h f (List.mem_cons_of_mem e hf)
    rw [entryLines] at hes ⊢
    rw [List.map_cons, List.flatMap_cons, group_entry (h e List.mem_cons_self), hes]
    simp

theorem readInner_body {es : Entries Text} (hne : es ≠ []) (h : ∀ e ∈ es, Continues e.2) :
    readInner (body es) = some (es.map fun e => (e.1, trimBreaks e.2)) := by
  unfold readInner
  rw [splitOn_body hne, mapM_unindent]
  simp [group_entries h]

end ScriptValue.Block
