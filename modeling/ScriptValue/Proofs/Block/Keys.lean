import ScriptValue.Proofs.Block.RoundTrip
import ScriptValue.Proofs.Coercion.Kinds
import ScriptValue.Proofs.Entries.Merge

/-!
Keys of blocks that were written. A value may hold any text, also lines that start entries of their
own, and then other values are read than were written; but each line with a key starts an entry
still, since all that unifying breaks takes off of a line is a return at its end. So what is written
can be read, and no key is lost.
-/

namespace ScriptValue.Block

def chomp (line : Text) : Text := if line.getLast? = some '\r' then line.dropLast else line

theorem chomp_append {s : Text} (t : Text) (h : s.getLast? ≠ some '\r') :
    chomp (s ++ t) = s ++ chomp t := by
  by_cases ht : t = []
  · rw [ht, List.append_nil, chomp, if_neg h]
    exact (List.append_nil s).symm
  · rw [chomp, chomp, List.getLast?_append_of_ne_nil _ ht]
    split
    case isTrue => exact List.dropLast_append_of_ne_nil ht
    case isFalse => rfl

theorem isPrefix_chomp (line : Text) : chomp line <+: line := by
  rw [chomp]
  split
  · exact List.dropLast_prefix line
  · exact List.prefix_rfl

theorem unifyBreaks_line {line : Text} (t : Text) (h : '\n' ∉ line) :
    unifyBreaks (line ++ '\n' :: t) = chomp line ++ '\n' :: unifyBreaks t := by
  induction line with
  | nil => exact unifyBreaks_cons (.inl (by decide))
  | cons c line ih =>
    rw [List.mem_cons, not_or] at h
    cases line with
    | nil =>
      by_cases hc : c = '\r'
      · simp [hc, unifyBreaks, chomp]
      · simp [unifyBreaks_cons, hc, chomp]
    | cons d line =>
      -- what follows `c` is in the line itself, so `c` is not part of a break
      have hd : d ≠ '\n' := fun hd => h.2 (hd ▸ List.mem_cons_self)
      have hchomp : chomp (c :: d :: line) = c :: chomp (d :: line) := by
        simp only [chomp, List.getLast?_cons_cons]
        split <;> rfl
      rw [List.cons_append, unifyBreaks_cons (.inr (by simpa using hd)), ih h.2, hchomp]
      rfl

theorem unifyBreaks_lines {lines : List Text} (hne : lines ≠ []) (h : ∀ l ∈ lines, '\n' ∉ l)
    (t : Text) : unifyBreaks (['\n'].intercalate lines ++ '\n' :: t) =
      ['\n'].intercalate (lines.map chomp) ++ '\n' :: unifyBreaks t := by
  induction lines with
  | nil => exact absurd rfl hne
  | cons l ls ih =>
    rw [List.forall_mem_cons] at h
    cases ls with
    | nil => simpa using unifyBreaks_line t h.1
    | cons m ls =>
      have hls := ih (List.cons_ne_nil m ls) h.2
      rw [List.map_cons] at hls
      rw [List.map_cons, List.map_cons, List.intercalate_cons_cons, List.intercalate_cons_cons]
      simp only [List.append_assoc, List.cons_append, List.nil_append]
      rw [unifyBreaks_line _ h.1, hls]

def readLines (es : Entries Text) : List Text := (entryLines es).map chomp

theorem unifyBreaks_render_eq {es : Entries Text} (h : es ≠ []) :
    unifyBreaks (render es) =
      ['{', '\n'] ++ ['\n'].intercalate ((readLines es).map ('\t' :: ·)) ++ ['\n', '}'] := by
  have hchomp : ((entryLines es).map ('\t' :: ·)).map chomp = (readLines es).map ('\t' :: ·) := by
    have htab (l : Text) : chomp ('\t' :: l) = '\t' :: chomp l :=
      chomp_append (s := ['\t']) l (by decide)
    simp [readLines, htab]
  have hlines := unifyBreaks_lines (List.splitOn_ne_nil '\n' (body es))
    (fun l hl => notMem_of_mem_splitOn hl) ['}']
  rw [List.intercalate_splitOn, splitOn_body h, hchomp] at hlines
  rw [render_eq h, List.append_assoc, unifyBreaks_append _ (by decide), hlines, List.append_assoc]
  rfl

theorem notMem_readLines {es : Entries Text} {l : Text} (hl : l ∈ readLines es) : '\n' ∉ l := by
  obtain ⟨m, hm, rfl⟩ := List.mem_map.1 hl
  obtain ⟨t, -, hmt⟩ := List.mem_flatMap.1 hm
  exact fun h => notMem_of_mem_splitOn hmt ((isPrefix_chomp m).subset h)

theorem keyLine_chomp (key rest : Text) :
    keyLine (chomp (renderKey key ++ separator ++ rest)) = some (key, chomp rest) := by
  rw [chomp_append rest (by simp [separator]), List.append_assoc, keyLine_renderKey]

theorem exists_keyLine_of_mem {es : Entries Text} {e : Text × Text} (he : e ∈ es) :
    ∃ line ∈ readLines es, ∃ rest, keyLine line = some (e.1, rest) := by
  obtain ⟨rest, more, hvalue⟩ := List.exists_cons_of_ne_nil (List.splitOn_ne_nil '\n' e.2)
  refine ⟨_, List.mem_map_of_mem (List.mem_flatMap.2 ⟨_, List.mem_map_of_mem he, ?_⟩),
    chomp rest, keyLine_chomp e.1 rest⟩
  rw [splitOn_renderEntry hvalue]
  exact List.mem_cons_self

theorem exists_readLines_cons {es : Entries Text} (h : es ≠ []) :
    ∃ line lines p, readLines es = line :: lines ∧ keyLine line = some p := by
  obtain ⟨e, es, rfl⟩ := List.exists_cons_of_ne_nil h
  obtain ⟨rest, more, hvalue⟩ := List.exists_cons_of_ne_nil (List.splitOn_ne_nil '\n' e.2)
  rw [readLines, entryLines, List.map_cons, List.flatMap_cons, splitOn_renderEntry hvalue]
  exact ⟨_, _, _, rfl, keyLine_chomp e.1 rest⟩

theorem keys_group (lines : List Text) :
    (group lines).2.map Prod.fst = lines.filterMap fun l => (keyLine l).map Prod.fst := by
  induction lines with
  | nil => rfl
  | cons l ls ih =>
    cases hl : keyLine l with
    | none => simp [group_cons_of_none ls hl, hl, ih]
    | some p => simp [group_cons_of_some ls hl, hl, ih]

theorem exists_readInner {es : Entries Text} (h : es ≠ []) :
    ∃ fs : Entries Text,
      readInner (['\n'].intercalate ((readLines es).map ('\t' :: ·))) = some fs ∧
      fs.keys = (readLines es).filterMap fun l => (keyLine l).map Prod.fst := by
  obtain ⟨line, lines, p, hlines, hline⟩ := exists_readLines_cons h
  have hbreak : ∀ l ∈ (readLines es).map ('\t' :: ·), '\n' ∉ l := by
    rw [List.forall_mem_map]
    exact fun l hl => by simpa using notMem_readLines hl
  have hbefore : (group (readLines es)).1 = [] := by rw [hlines, group_cons_of_some lines hline]
  unfold readInner
  rw [List.splitOn_intercalate '\n' hbreak (by simp [hlines]), mapM_unindent]
  refine ⟨(group (readLines es)).2.map fun e => (e.1, trimBreaks (['\n'].intercalate e.2)), ?_, ?_⟩
  · simp [hbefore]
  · rw [← keys_group, Entries.keys, List.map_map]
    rfl

theorem keys_subset_readLines (es : Entries Text) :
    es.keys ⊆ (readLines es).filterMap fun l => (keyLine l).map Prod.fst := by
  intro key hkey
  obtain ⟨e, he, rfl⟩ := List.mem_map.1 hkey
  obtain ⟨line, hline, rest, hread⟩ := exists_keyLine_of_mem he
  exact List.mem_filterMap.2 ⟨line, hline, by rw [hread]; rfl⟩

section

variable [DateLibrary]

theorem readWhole_braces (inner : Text) :
    readWhole (['{', '\n'] ++ inner ++ ['\n', '}']) = (readInner inner).map fun es =>
      Entries.ofList (es.map fun e => (e.1, readValue readWhole e.2)) := by
  have hbraces : ['{', '\n'] ++ inner ++ ['\n', '}'] =
      ['{'] ++ ('\n' :: inner ++ ['\n']) ++ ['}'] := by simp
  have hempty : isEmptyBlock (['{', '\n'] ++ inner ++ ['\n', '}']) = false := by
    cases inner <;> simp [isEmptyBlock]
  rw [readWhole_eq, hbraces, trim_of_braces, ← hbraces, hempty, inner?_eq_some_iff.2 rfl]
  rfl

theorem exists_parse_render (es : Entries Text) :
    ∃ d : Dictionary, parse (render es) = some d ∧ es.keys ⊆ d.keys := by
  by_cases h : es = []
  · rw [h]
    exact ⟨[], rfl, List.nil_subset _⟩
  · obtain ⟨fs, hfs, hkeys⟩ := exists_readInner h
    let d : Dictionary := Entries.ofList (fs.map fun e => (e.1, readValue readWhole e.2))
    have hread : parse (render es) = some d := by
      have hclose (t : Text) : ['{', '\n'] ++ t ++ ['\n', '}'] =
          ['{', '\n'] ++ t ++ ['\n'] ++ ['}'] := by simp
      rw [parse, unifyBreaks_render_eq h, hclose, trimBreaks_append_singleton _ (by decide),
        ← hclose, readWhole_braces, hfs]
      rfl
    refine ⟨d, hread, fun key hkey => ?_⟩
    rw [Entries.mem_keys_ofList, Entries.keys, List.map_map]
    have hmem := keys_subset_readLines es hkey
    rwa [← hkeys] at hmem

theorem keys_entryTexts {a : Access} {d : Dictionary} {es : Entries Text}
    (h : a.entryTexts d = .ok es) : es.keys = d.keys := by
  induction d generalizing es with
  | nil =>
    cases h
    rfl
  | cons e d ih =>
    rw [Access.entryTexts] at h
    obtain ⟨t, -, h⟩ := exists_of_bind_eq_ok h
    obtain ⟨ts, hts, h⟩ := exists_of_bind_eq_ok h
    cases h
    rw [Entries.keys_cons, Entries.keys_cons, ih hts]

/--
Whatever a dictionary holds and whatever the variables and the configuration are: if it has a text,
the text is read as a dictionary in which none of its keys is missing.
-/
theorem exists_parse_of_text {ctx : Context} {d : Dictionary} {t : Text}
    (h : ctx.text (.dictionary d) = .ok t) :
    ∃ e : Dictionary, parse t = some e ∧ d.keys ⊆ e.keys := by
  obtain ⟨es, hes, rfl⟩ := exists_of_map_eq_ok h
  rw [← keys_entryTexts hes]
  exact exists_parse_render es

end

theorem exists_parse_of_text_misread :
    let ctx : Context := ⟨.standard, fun _ => some (.text "x\r\n\"c\" = 1\r\n".toList)⟩
    let d : Dictionary :=
      [("a = \"".toList, .variable ['v']), ([], .list [.text "\n\x7d\r".toList, .boolean true]),
        ("\tb\n".toList, .dictionary [(['='], .text "\r".toList)])]
    ∃ t, ctx.text (.dictionary d) = .ok t ∧
      ∃ e : Dictionary, parse t = some e ∧ d.keys ⊆ e.keys := by
  intro ctx d
  have htext : ctx.text (.dictionary d) =
      .ok ("\x7b\n\t\"a = \\\"\" = x\r\n\t\"c\" = 1\r\n\t\n\t\"\" = \n\t\x7d\r,true\n" ++
        "\t\"\\tb\\n\" = \x7b\n\t\t\"=\" = \r\n\t\x7d\n\x7d").toList := rfl
  exact ⟨_, htext, exists_parse_of_text htext⟩

end ScriptValue.Block
