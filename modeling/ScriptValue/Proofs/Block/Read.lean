import ScriptValue.Proofs.Block.Render

namespace ScriptValue.Block

theorem suffix_of_readQuoted {line key rest : Text} (h : readQuoted line = some (key, rest)) :
    rest <:+ line := by
  induction line using readQuoted.induct generalizing key with
  | case1 => simp [readQuoted] at h
  | case2 t =>
    simp only [readQuoted, Option.map_eq_some_iff, Prod.mk.injEq,
      List.isPrefixOf?_eq_some_iff_append_eq] at h
    obtain ⟨r, rfl, rfl, rfl⟩ := h
    exact (List.suffix_append separator r).trans (List.suffix_cons '"' _)
  | case3 => simp [readQuoted] at h
  | case4 c t ih =>
    simp only [readQuoted, Option.map_eq_some_iff, Prod.mk.injEq] at h
    obtain ⟨⟨k, r⟩, hread, rfl, rfl⟩ := h
    exact ((ih hread).trans (List.suffix_cons c t)).trans (List.suffix_cons '\\' _)
  | case5 c t hquote hend hslash ih =>
    rw [readQuoted_cons t hquote (ne_slash_of hend hslash)] at h
    simp only [Option.map_eq_some_iff, Prod.mk.injEq] at h
    obtain ⟨⟨k, r⟩, hread, rfl, rfl⟩ := h
    exact (ih hread).trans (List.suffix_cons c t)

theorem suffix_of_keyLine {line key rest : Text} (h : keyLine line = some (key, rest)) :
    rest <:+ line := by
  unfold keyLine at h
  split at h
  · simp at h
  · exact (suffix_of_readQuoted h).trans (List.suffix_cons '"' _)
  · rw [eq_append_of_splitSeparator h, ← List.append_assoc]
    exact List.suffix_append _ rest

theorem suffix_of_unindent {line l : Text} (h : unindent line = some l) : l <:+ line := by
  unfold unindent at h
  split at h
  · simp_all
  · simp only [Option.some.injEq] at h
    exact h ▸ List.suffix_cons '\t' _
  · simp at h

theorem of_mem_group_fst {lines : List Text} {l : Text} (h : l ∈ (group lines).1) :
    l ∈ lines ∧ keyLine l = none := by
  induction lines with
  | nil => simp [group] at h
  | cons line lines ih =>
    cases hline : keyLine line with
    | some p => simp [group_cons_of_some lines hline] at h
    | none =>
      rw [group_cons_of_none lines hline, List.mem_cons] at h
      rcases h with rfl | h
      · exact ⟨List.mem_cons_self, hline⟩
      · exact (ih h).imp_left (List.mem_cons_of_mem line)

theorem exists_of_mem_group {lines : List Text} {e : Text × List Text} (h : e ∈ (group lines).2) :
    ∃ line ∈ lines, ∃ rest more, keyLine line = some (e.1, rest) ∧ e.2 = rest :: more ∧
      ∀ l ∈ more, l ∈ lines ∧ keyLine l = none := by
  induction lines with
  | nil => simp [group] at h
  | cons line lines ih =>
    have hlater : e ∈ (group lines).2 → ∃ line' ∈ line :: lines, ∃ rest more,
        keyLine line' = some (e.1, rest) ∧ e.2 = rest :: more ∧
          ∀ l ∈ more, l ∈ line :: lines ∧ keyLine l = none := by
      intro h
      obtain ⟨line', hmem, rest, more, hkey, he, hmore⟩ := ih h
      exact ⟨line', List.mem_cons_of_mem line hmem, rest, more, hkey, he,
        fun l hl => (hmore l hl).imp_left (List.mem_cons_of_mem line)⟩
    cases hline : keyLine line with
    | none =>
      rw [group_cons_of_none lines hline] at h
      exact hlater h
    | some p =>
      rw [group_cons_of_some lines hline, List.mem_cons] at h
      rcases h with rfl | h
      · exact ⟨line, List.mem_cons_self, p.2, _, hline, rfl, fun l hl =>
          (of_mem_group_fst hl).imp_left (List.mem_cons_of_mem line)⟩
      · exact hlater h

def weight : List Text → Nat
  | [] => 0
  | l :: ls => l.length + 1 + weight ls

@[simp] theorem weight_nil : weight [] = 0 := rfl

@[simp] theorem weight_cons (l : Text) (ls : List Text) :
    weight (l :: ls) = l.length + 1 + weight ls := rfl

theorem length_intercalate {lines : List Text} (h : lines ≠ []) :
    (['\n'].intercalate lines).length + 1 = weight lines := by
  induction lines with
  | nil => exact absurd rfl h
  | cons l ls ih =>
    cases ls with
    | nil => simp
    | cons m ls =>
      rw [List.intercalate_cons_cons, weight_cons, ← ih (List.cons_ne_nil m ls)]
      simp
      omega

theorem weight_splitOn (t : Text) : weight (t.splitOn '\n') = t.length + 1 := by
  rw [← length_intercalate (List.splitOn_ne_nil '\n' t), List.intercalate_splitOn]

theorem of_mapM_unindent {lines ls : List Text} (h : lines.mapM unindent = some ls) :
    List.Forall₂ (fun line l => l <:+ line) lines ls := by
  induction lines generalizing ls with
  | nil => simp_all
  | cons line lines ih =>
    simp only [List.mapM_cons, Option.pure_def, Option.bind_eq_bind, Option.bind_eq_some_iff,
      Option.some.injEq] at h
    obtain ⟨l, hl, ls, hls, rfl⟩ := h
    exact .cons (suffix_of_unindent hl) (ih hls)

theorem weight_le_of_forall₂ {lines ls : List Text}
    (h : List.Forall₂ (fun line l => l <:+ line) lines ls) : weight ls ≤ weight lines := by
  induction h with
  | nil => exact Nat.le_refl 0
  | cons hl _ ih =>
    have := hl.length_le
    simp only [weight_cons]
    omega

theorem weight_group (lines : List Text) :
    weight (group lines).1 ≤ weight lines ∧ ∀ e ∈ (group lines).2, weight e.2 ≤ weight lines := by
  induction lines with
  | nil => simp [group]
  | cons line lines ih =>
    obtain ⟨hfst, hsnd⟩ := ih
    cases hline : keyLine line with
    | none =>
      simp only [group_cons_of_none lines hline, weight_cons]
      exact ⟨by omega, fun e he => (hsnd e he).trans (by omega)⟩
    | some p =>
      have hrest := (suffix_of_keyLine hline).length_le
      simp only [group_cons_of_some lines hline, weight_cons, List.mem_cons, forall_eq_or_imp]
      exact ⟨by simp, by omega, fun e he => (hsnd e he).trans (by omega)⟩

theorem length_trimBreaks_le (t : Text) : (trimBreaks t).length ≤ t.length :=
  (List.rdropWhile_prefix isBreak t).length_le

theorem notMem_of_forall₂ {c : Char} {lines ls : List Text}
    (h : List.Forall₂ (fun line l => l <:+ line) lines ls) (hc : ∀ line ∈ lines, c ∉ line) :
    ∀ l ∈ ls, c ∉ l := by
  induction h with
  | nil => simp
  | cons hl _ ih =>
    simp only [List.mem_cons, forall_eq_or_imp] at hc ⊢
    exact ⟨fun hmem => hc.1 (hl.subset hmem), ih hc.2⟩

theorem exists_of_readInner {inner : Text} {es : Entries Text} (h : readInner inner = some es) :
    ∃ lines, (inner.splitOn '\n').mapM unindent = some lines ∧
      es = (group lines).2.map fun e => (e.1, trimBreaks (['\n'].intercalate e.2)) := by
  simp only [readInner, Option.bind_eq_bind, Option.bind_eq_some_iff] at h
  obtain ⟨lines, hlines, h⟩ := h
  split at h
  · exact ⟨lines, hlines, (Option.some.inj h).symm⟩
  · simp at h

theorem of_readInner {inner : Text} {es : Entries Text} (h : readInner inner = some es)
    {e : Text × Text} (he : e ∈ es) :
    Continues e.2 ∧ trimBreaks e.2 = e.2 ∧ e.2.length ≤ inner.length := by
  obtain ⟨lines, hlines, rfl⟩ := exists_of_readInner h
  obtain ⟨g, hg, rfl⟩ := List.mem_map.1 he
  have hsuffix := of_mapM_unindent hlines
  obtain ⟨line, hline, rest, more, hkey, hvalue, hmore⟩ := exists_of_mem_group hg
  have hbreak : ∀ l ∈ g.2, '\n' ∉ l := by
    have hin := notMem_of_forall₂ hsuffix fun l hl => notMem_of_mem_splitOn hl
    rw [hvalue, List.forall_mem_cons]
    exact ⟨fun hmem => hin line hline ((suffix_of_keyLine hkey).subset hmem),
      fun l hl => hin l (hmore l hl).1⟩
  have hne : g.2 ≠ [] := by simp [hvalue]
  have hcontinues : Continues (['\n'].intercalate g.2) := by
    rw [Continues, List.splitOn_intercalate '\n' hbreak hne, hvalue]
    exact fun l hl => (hmore l hl).2
  refine ⟨hcontinues.trimBreaks, trimBreaks_trimBreaks _, ?_⟩
  have htrim := length_trimBreaks_le (['\n'].intercalate g.2)
  have hlength := length_intercalate hne
  have hgroup := (weight_group lines).2 g hg
  have hlines := weight_le_of_forall₂ hsuffix
  rw [weight_splitOn] at hlines
  change (trimBreaks _).length ≤ inner.length
  omega

theorem inner?_eq_some_iff {t inner : Text} :
    inner? t = some inner ↔ t = ['{', '\n'] ++ inner ++ ['\n', '}'] := by
  simp only [inner?, Option.bind_eq_some_iff, List.isPrefixOf?_eq_some_iff_append_eq,
    List.isSuffixOf?_eq_some_iff_append_eq]
  constructor
  · rintro ⟨rest, rfl, rfl⟩
    simp
  · rintro rfl
    exact ⟨inner ++ ['\n', '}'], by simp, rfl⟩

theorem length_trim_le (t : Text) : t.trim.length ≤ t.length :=
  (List.rdropWhile_prefix isWhiteSpace _).length_le.trans (List.dropWhile_suffix _).length_le

theorem length_lt_of_mem_block {t : Text} {es : Entries Text}
    (h : (inner? t.trim).bind readInner = some es) {e : Text × Text} (he : e ∈ es) :
    e.2.length < t.length := by
  obtain ⟨inner, hinner, hes⟩ := Option.bind_eq_some_iff.1 h
  have htrim := length_trim_le t
  have hlength := (of_readInner hes he).2.2
  rw [inner?_eq_some_iff.1 hinner] at htrim
  simp at htrim
  omega

variable [DateLibrary]

theorem readBlock_succ (n : Nat) (t : Text) :
    readBlock (n + 1) t =
      if isEmptyBlock t.trim then some []
      else ((inner? t.trim).bind readInner).map fun es =>
        Entries.ofList (es.map fun e => (e.1, readValue (readBlock n) e.2)) := by
  rw [readBlock]
  split
  · rfl
  · simp only [Option.map_eq_bind, Option.bind_eq_bind, Option.bind_assoc]
    rfl

theorem map_readValue_congr {read read' : Text → Option Dictionary} {es : Entries Text}
    (h : ∀ e ∈ es, read e.2 = read' e.2) :
    (es.map fun e => (e.1, readValue read e.2)) = es.map fun e => (e.1, readValue read' e.2) :=
  List.map_congr_left fun e he => by rw [readValue, readValue, h e he]

theorem readBlock_eq_readBlock {n m : Nat} {t : Text} (hn : t.length < n) (hm : t.length < m) :
    readBlock n t = readBlock m t := by
-- the values of a block are shorter than it, so that either depth is left for them too
  induction n generalizing m t with
  | zero => omega
  | succ n ih =>
    obtain ⟨m, rfl⟩ := Nat.exists_eq_add_one_of_ne_zero (Nat.ne_of_gt (Nat.zero_lt_of_lt hm))
    rw [readBlock_succ, readBlock_succ]
    split
    · rfl
    · cases hes : (inner? t.trim).bind readInner with
      | none => rfl
      | some es =>
        have hread : ∀ e ∈ es, readBlock n e.2 = readBlock m e.2 := by
          intro e he
          have hlength := length_lt_of_mem_block hes he
          exact ih (by omega) (by omega)
        rw [Option.map_some, Option.map_some, map_readValue_congr hread]

theorem readWhole_eq (t : Text) :
    readWhole t =
      if isEmptyBlock t.trim then some []
      else ((inner? t.trim).bind readInner).map fun es =>
        Entries.ofList (es.map fun e => (e.1, readValue readWhole e.2)) := by
  rw [readWhole, readBlock_succ]
  split
  · rfl
  · cases hes : (inner? t.trim).bind readInner with
    | none => rfl
    | some es =>
      have hread : ∀ e ∈ es, readBlock t.length e.2 = readWhole e.2 := fun e he =>
        readBlock_eq_readBlock (length_lt_of_mem_block hes he) (Nat.lt_succ_self _)
      rw [Option.map_some, Option.map_some, map_readValue_congr hread]

end ScriptValue.Block
