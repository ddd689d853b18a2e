import ScriptValue.Proofs.Chunk.Replace

namespace ScriptValue.Piece

variable {α : Type}

namespace Reads

variable {scan : List α → List (Piece α)} {Fits : Piece α → List α → Prop} {us : List α}
  {xs : List (Piece α)} {p : Piece α} (h : Reads scan Fits (· = []))

include h

theorem exists_concat (hus : us ≠ []) : ∃ xs p, scan us = xs ++ [p] := by
  cases List.eq_nil_or_concat' (scan us) with
  | inl hnil =>
    cases hnil ▸ h.layout us with
    | nil heq => exact absurd heq hus
  | inr hconcat => exact hconcat

theorem of_concat (heq : scan us = xs ++ [p]) :
    us = xs.flatMap units ++ p.units ∧ Fits p [] := by
  obtain ⟨vs, hvs, hp⟩ := (heq ▸ h.layout us).drop
  cases hp with
  | cons hp hnil =>
    cases hnil with
    | nil hnil =>
      rw [hnil] at hp hvs
      exact ⟨hvs.trans (by rw [List.append_nil]), hp⟩

theorem extend {sep : α → Bool} (hr : Replaceable Fits sep) (heq : scan us = xs ++ [p])
    {q : Piece α} {vs : List α} (hhead : p.units.head? = q.units.head?) (hq : Fits q vs) :
    scan (xs.flatMap units ++ (q.units ++ vs)) = xs ++ q :: scan vs :=
  h.eq_of_layout ((heq ▸ h.layout us).extend hr h.ne_nil hhead hq (h.layout vs))

end Reads

section Terminated

variable {sep : α → Bool} {Closes : List α → List α → Prop} (hc : Closing sep Closes)

include hc

theorem Terminated.of_getLast? {p : Piece α} {u : α} (hp : Terminated sep Closes p [])
    (hu : u ∈ p.units.getLast?) :
    sep u = true ∧ Closes p.close [] ∧ u ∈ p.close.getLast? ∨ sep u = false ∧ p.close = [] := by
  cases hp with
  | @mk body close _ hbody hclose =>
    left
    have hlast : u ∈ close.getLast? := by
      rwa [units, List.getLast?_append_of_ne_nil _ (hc.ne_nil hclose)] at hu
    exact ⟨hc.sep_eq_true hclose u hlast, hclose, hlast⟩
  | @last body hbody =>
    right
    simp only [units, List.nil_append, List.append_nil] at hu
    exact ⟨hbody u (List.mem_of_mem_getLast? hu), rfl⟩

theorem Terminated.of_closes {p : Piece α} {close us vs : List α}
    (hp : Terminated sep Closes p us) (hclose : Closes close vs) :
    Terminated sep Closes ⟨p.lead, p.body, close⟩ vs := by
  rw [hp.lead_eq_nil]
  exact .mk ((replaceable_terminated hc).sep_eq_false hp) hclose

variable {scan : List α → List (Piece α)} (h : Reads scan (Terminated sep Closes) (· = []))
  {us vs : List α} {u d : α}

include h

theorem exists_last_piece (hu : u ∈ us.getLast?) :
    ∃ xs p, scan us = xs ++ [p] ∧ us = xs.flatMap units ++ p.units ∧ Terminated sep Closes p [] ∧
      (sep u = true ∧ Closes p.close [] ∧ u ∈ p.close.getLast? ∨ sep u = false ∧ p.close = []) := by
  have hus : us ≠ [] := by
    rintro rfl
    cases hu
  obtain ⟨xs, p, heq⟩ := h.exists_concat hus
  obtain ⟨hunits, hp⟩ := h.of_concat heq
  refine ⟨xs, p, heq, hunits, hp, hp.of_getLast? hc ?_⟩
  rwa [hunits, List.getLast?_append_of_ne_nil _ (h.ne_nil hp)] at hu

theorem map_body_extend {xs : List (Piece α)} {p : Piece α} {close : List α}
    (heq : scan us = xs ++ [p]) (hclose : Closes close vs)
    (hhead : p.units.head? = (⟨p.lead, p.body, close⟩ : Piece α).units.head?) :
    (scan (xs.flatMap units ++ ((⟨p.lead, p.body, close⟩ : Piece α).units ++ vs))).map body =
      (scan us).map body ++ (scan vs).map body := by
  have hp := (h.of_concat heq).2
  rw [h.extend (replaceable_terminated hc) heq hhead (hp.of_closes hc hclose), heq]
  simp

theorem map_body_append_of_closed (hu : u ∈ us.getLast?) (hsep : sep u = true)
    (hvs : ∀ {close}, Closes close [] → u ∈ close.getLast? → Closes close vs) :
    (scan (us ++ vs)).map body = (scan us).map body ++ (scan vs).map body := by
  obtain ⟨xs, p, heq, hunits, -, hp⟩ := exists_last_piece hc h hu
  obtain ⟨-, hclose, hlast⟩ := hp.resolve_right fun hopen => by simp [hsep] at hopen
  rw [← map_body_extend hc h heq (hvs hclose hlast) rfl, ← List.append_assoc, ← hunits]

theorem map_body_append_cons {xs : List (Piece α)} {p : Piece α} (heq : scan us = xs ++ [p])
    (hclose : Closes (p.close ++ [d]) vs) :
    (scan (us ++ d :: vs)).map body = (scan us).map body ++ (scan vs).map body := by
  obtain ⟨hunits, hp⟩ := h.of_concat heq
  have hpunits : (⟨p.lead, p.body, p.close ++ [d]⟩ : Piece α).units = p.units ++ [d] := by
    simp [units]
  rw [← map_body_extend hc h heq hclose, hpunits]
  · rw [hunits]
    simp
  · rw [hpunits, List.head?_append_of_ne_nil _ (h.ne_nil hp)]

theorem map_body_append_of_open (hu : u ∈ us.getLast?) (hsep : sep u = false)
    (hd : Closes [d] vs) :
    (scan (us ++ d :: vs)).map body = (scan us).map body ++ (scan vs).map body := by
  obtain ⟨xs, p, heq, -, -, hp⟩ := exists_last_piece hc h hu
  obtain ⟨-, hopen⟩ := hp.resolve_left fun hclosed => by simp [hsep] at hclosed
  exact map_body_append_cons hc h heq (by rwa [hopen])

omit hc in
theorem map_body_replicate_append {r : List α} (hd : ∀ vs, Closes [d] vs) (hr : Unbroken sep r)
    (n : Nat) :
    (scan (List.replicate n d ++ r)).map body = List.replicate n [] ++ [r] := by
  induction n with
  | zero =>
    -- a last chunk needs nothing to close it
    have hlayout : Layout (Terminated sep Closes) (· = []) [⟨[], r, []⟩]
        ((⟨[], r, []⟩ : Piece α).units ++ []) := .cons (.last hr.sep_eq_false hr.ne_nil) (.nil rfl)
    have hscan := h.eq_of_layout hlayout
    rw [append_units, List.append_nil, List.append_nil, List.nil_append] at hscan
    simp [hscan]
  | succ n ih =>
    have hstep := h.step (.mk (List.forall_mem_nil _) (hd (List.replicate n d ++ r)))
    rw [append_units, List.nil_append, List.nil_append, List.singleton_append] at hstep
    rw [List.replicate_succ, List.cons_append, hstep, List.map_cons, ih]
    rfl

end Terminated

section Padding

variable [DecidableEq α] [ChunkUnit α]

theorem isClosed_eq {kind : ChunkKind} (hkind : kind.padsWhenExtended = true) (d : Delimiters)
    (us : List α) :
    (Segmentation.of kind d us).isClosed = us.getLast?.any (separates kind d) := by
  have hunits : (Segmentation.of kind d us).units = us := rfl
  rw [Segmentation.isClosed, hunits]
  cases us.getLast? with
  | none => rfl
  | some u =>
    have hdelimiter (k : ChunkKind) :
        decide (separator? k d = some u) = (separator? k d == some u) := by
      rw [Bool.eq_iff_iff, decide_eq_true_iff, beq_iff_eq]
    cases kind with
    | character => cases hkind
    | word => cases hkind
    | sentence => cases hkind
    | paragraph => cases hkind
    | line => rfl
    | item => exact hdelimiter .item
    | column => exact hdelimiter .column
    | row => exact hdelimiter .row

variable {spec : ChunkSpec} {d : Delimiters} {us : List α}

theorem splice_of_count_lt {u : α} (hu : separator? spec.kind d = some u) {first last : Nat}
    (hb : spec.clampedBounds (Segmentation.of spec.kind d us).count = (first, last))
    (hcount : (Segmentation.of spec.kind d us).count < first) (preposition : Preposition)
    (body : List α) :
    splice d spec preposition body us =
      us ++ (List.replicate (first - (Segmentation.of spec.kind d us).count - 1 +
        if us = [] || (Segmentation.of spec.kind d us).isClosed then 0 else 1) u ++ body) := by
  have hsep : (Segmentation.of spec.kind d us).separator? = some u := hu
  rw [splice, Segmentation.splice, hb, if_pos hcount, Segmentation.padding, hsep,
    List.append_assoc]
  rfl

variable {Closes : List α → List α → Prop} (hc : Closing (separates spec.kind d) Closes)
  (hreads : Reads (cut spec.kind d) (Terminated (separates spec.kind d) Closes) (· = []))
  {u : α} (hd : ∀ vs, Closes [u] vs)

include hc hreads hd

variable (spec d) in
theorem chunks_splice_of_closes (hkind : spec.kind.padsWhenExtended = true)
    (hu : separator? spec.kind d = some u) {first last : Nat}
    (hb : spec.clampedBounds (Segmentation.of spec.kind d us).count = (first, last))
    (hcount : (Segmentation.of spec.kind d us).count < first) {body : List α}
    (hbody : Unbroken (separates spec.kind d) body)
    (hmerge : ∀ v ∈ us.getLast?, separates spec.kind d v = true → ∀ {close}, Closes close [] →
      v ∈ close.getLast? → Closes close
        (List.replicate (first - (Segmentation.of spec.kind d us).count - 1) u ++ body)) :
    chunks spec.kind d (splice d spec .into body us) = chunks spec.kind d us ++
      (List.replicate (first - (Segmentation.of spec.kind d us).count - 1) [] ++ [body]) := by
  rw [splice_of_count_lt hu hb hcount, isClosed_eq hkind]
  generalize first - (Segmentation.of spec.kind d us).count - 1 = n at hmerge
  rw [← map_body_replicate_append hreads hd hbody]
  cases hlast : us.getLast? with
  | none =>
    have hnil : cut spec.kind d ([] : List α) = [] := hreads.bare rfl
    rw [List.getLast?_eq_none_iff.1 hlast, chunks, chunks, hnil]
    rfl
  | some v =>
    have hne : us ≠ [] := by
      rintro rfl
      cases hlast
    -- behind an open sequence the first separator closes the last chunk
    cases hsep : separates spec.kind d v with
    | true =>
      simp only [hne, decide_false, Option.any_some, hsep, Bool.or_true, if_true, Nat.add_zero]
      exact map_body_append_of_closed hc hreads hlast hsep (hmerge v hlast hsep)
    | false =>
      simp only [hne, decide_false, Option.any_some, hsep, Bool.or_false, Bool.false_eq_true,
        if_false, List.replicate_succ, List.cons_append]
      exact map_body_append_of_open hc hreads hlast hsep (hd _)

omit hc hreads hd in
theorem chunks_splice_of_isDelimited (hkind : spec.kind.isDelimited = true)
    (hu : separator? spec.kind d = some u) {first last : Nat}
    (hb : spec.clampedBounds (Segmentation.of spec.kind d us).count = (first, last))
    (hcount : (Segmentation.of spec.kind d us).count < first) {body : List α}
    (hbody : Unbroken (separates spec.kind d) body) :
    chunks spec.kind d (splice d spec .into body us) = chunks spec.kind d us ++
      (List.replicate (first - (Segmentation.of spec.kind d us).count - 1) [] ++ [body]) := by
  have hpads : spec.kind.padsWhenExtended = true := by simp [ChunkKind.padsWhenExtended, hkind]
  have hsep := separates_of_some hkind hu
  have hclosing : Closing (separates spec.kind d) fun close (_ : List α) => close = [u] := by
    rw [hsep]
    exact closing_delimiter u
  have hreads : Reads (cut spec.kind d) (Terminated (separates spec.kind d)
      fun close (_ : List α) => close = [u]) (· = []) := by
    rw [cut_of_some hkind hu, hsep]
    exact reads_delimited u
  exact chunks_splice_of_closes spec d hclosing hreads (fun _ => rfl) hpads hu hb hcount hbody
    fun _ _ _ _ hclose _ => hclose

end Padding

section Lines

variable [ChunkUnit α]

theorem LineEnd.of_not_isReturn {close us : List α} {u : α} (h : LineEnd close us)
    (hu : u ∈ close.getLast?) (hreturn : ChunkUnit.isReturn u = false) (vs : List α) :
    LineEnd close vs := by
  cases h with
  | pair hr hf => exact .pair hr hf
  | @single v _ hbreak =>
    obtain rfl : v = u := Option.some.inj hu
    exact .single hbreak fun hr => by simp [hreturn] at hr

theorem LineEnd.eq_singleton {close us : List α} {u : α} (h : LineEnd close us)
    (hu : u ∈ close.getLast?) (hfeed : ChunkUnit.isFeed u = false) : close = [u] := by
  cases h with
  | @pair _ v _ _ hv =>
    obtain rfl : v = u := Option.some.inj hu
    simp [hfeed] at hv
  | @single v =>
    obtain rfl : v = u := Option.some.inj hu
    rfl

theorem map_body_append_of_return [LawfulChunkUnit α] {us : List α} {u v : α}
    (hu : u ∈ us.getLast?) (hreturn : ChunkUnit.isReturn u = true)
    (hfeed : ChunkUnit.isFeed u = false) (hv : ChunkUnit.isFeed v = true) (vs : List α) :
    (lines (us ++ v :: vs)).map body = (lines us).map body ++ (lines vs).map body := by
  obtain ⟨xs, p, heq, -, -, hp⟩ := exists_last_piece closing_lineEnd reads_lines hu
  obtain ⟨-, hclose, hlast⟩ := hp.resolve_right fun hopen => by
    simp [ChunkUnit.isLineBreak_of_isReturn u hreturn] at hopen
  refine map_body_append_cons closing_lineEnd reads_lines heq ?_
  rw [hclose.eq_singleton hlast hfeed]
  exact .pair hreturn hv

end Lines

end ScriptValue.Piece

namespace ScriptValue

open Piece

def absorbed (t : Text) (missing : Nat) : Nat :=
  if t.getLast? = some '\r' ∧ 0 < missing then 1 else 0

section Lines

variable {d : Delimiters} {t r : Text} {n missing : Nat}

theorem clampedBounds_line (d : Delimiters) (t : Text) (n : Nat) :
    (⟨.line, .nth (n + 1 : Nat), none⟩ : ChunkSpec).clampedBounds
      (Segmentation.of .line d t).count = (n + 1, n + 1) := by
  simp [ChunkSpec.clampedBounds, ChunkSpec.bounds, Ordinal.resolve]

theorem lineEnd_feed (vs : Text) : LineEnd ['\n'] vs :=
  .single rfl (by simp [ChunkUnit.isReturn])

variable (hn : (Segmentation.of .line d t).count + missing = n)
  (hr : Unbroken (separates .line d) r)

include hn hr

theorem chunks_splice_line_of_return (hlast : t.getLast? = some '\r') (hmissing : 0 < missing) :
    chunks .line d (splice d ⟨.line, .nth (n + 1 : Nat), none⟩ .into r t) =
      chunks .line d t ++ (List.replicate (missing - 1) [] ++ [r]) := by
  have hclosed : (Segmentation.of .line d t).isClosed = true := by
    rw [isClosed_eq rfl, hlast]
    rfl
  have hcount : (Segmentation.of .line d t).count < n + 1 := by omega
  have hpadding : n + 1 - (Segmentation.of .line d t).count - 1 = missing - 1 + 1 := by omega
  -- a closed text gets a feed for each line that is missing, and the first of them joins the return
  rw [splice_of_count_lt rfl (clampedBounds_line d t n) hcount, hclosed, Bool.or_true, if_pos rfl,
    Nat.add_zero, hpadding, List.replicate_succ, List.cons_append,
    ← map_body_replicate_append reads_lines lineEnd_feed hr]
  exact map_body_append_of_return hlast rfl rfl rfl _

theorem chunks_splice_line_of_not_return (h : t.getLast? ≠ some '\r' ∨ missing = 0) :
    chunks .line d (splice d ⟨.line, .nth (n + 1 : Nat), none⟩ .into r t) =
      chunks .line d t ++ (List.replicate missing [] ++ [r]) := by
  have hcount : (Segmentation.of .line d t).count < n + 1 := by omega
  have hpadding : n + 1 - (Segmentation.of .line d t).count - 1 = missing := by omega
  have hchunks := chunks_splice_of_closes ⟨.line, .nth (n + 1 : Nat), none⟩ d closing_lineEnd
    reads_lines lineEnd_feed rfl rfl (clampedBounds_line d t n) hcount hr
  rw [hpadding] at hchunks
  refine hchunks ?_
  intro v hv _ close hclose hmem
  cases h with
  | inl hlast =>
    have hne : v ≠ '\r' := fun heq => hlast (heq ▸ hv)
    exact hclose.of_not_isReturn hmem (by simpa [ChunkUnit.isReturn] using hne) _
  | inr hnone =>
    rw [hnone]
    refine closing_lineEnd.of_sep_eq_false ?_ hclose
    intro u hu
    exact hr.sep_eq_false u (List.mem_of_mem_head? hu)

theorem chunks_splice_line :
    chunks .line d (splice d ⟨.line, .nth (n + 1 : Nat), none⟩ .into r t) =
      chunks .line d t ++ (List.replicate (missing - absorbed t missing) [] ++ [r]) := by
  by_cases h : t.getLast? = some '\r' ∧ 0 < missing
  · rw [absorbed, if_pos h]
    exact chunks_splice_line_of_return hn hr h.1 h.2
  · rw [absorbed, if_neg h]
    refine chunks_splice_line_of_not_return hn hr ?_
    exact (Decidable.not_and_iff_or_not.1 h).imp_right Nat.eq_zero_of_not_pos

end Lines

theorem Segmentation.get_of_chunks_eq_concat {α : Type} [DecidableEq α] [ChunkUnit α]
    {kind : ChunkKind} {d : Delimiters} {us r : List α} {cs : List (List α)}
    (h : chunks kind d us = cs ++ [r]) :
    (Segmentation.of kind d us).get (cs.length + 1 : Nat) = r := by
  rw [get_eq_getD (by omega), h, Int.toNat_natCast, Nat.add_sub_cancel,
    List.getD_eq_getElem?_getD, List.getElem?_concat_length, Option.getD_some]

/--
A line written past the end follows the old lines and the empty lines in between, and it is the line
asked for unless the text ends with a lone return and lines are missing: then it is the line before.
-/
theorem lines_splice_past_end (d : Delimiters) {t r : Text} {n : Int}
    (hn : (chunks .line d t).length < n) (hne : r ≠ [])
    (hr : ∀ c ∈ r, ChunkUnit.isLineBreak c = false) :
    let written := splice d ⟨.line, .nth n, none⟩ .into r t
    let missing := n.toNat - (chunks .line d t).length - 1
    chunks .line d written = chunks .line d t ++
        (List.replicate (missing - absorbed t missing) [] ++ [r]) ∧
      (Segmentation.of .line d written).get (n - absorbed t missing) = r ∧
      (chunks .line d written = chunks .line d t ++ (List.replicate missing [] ++ [r]) ↔
        ¬ (t.getLast? = some '\r' ∧ 0 < missing)) := by
  have hcount := length_chunks .line d t
  obtain ⟨missing, rfl⟩ : ∃ missing : Nat, n = ((chunks .line d t).length + missing + 1 : Nat) :=
    ⟨n.toNat - (chunks .line d t).length - 1, by omega⟩
  have hmissing : ((((chunks .line d t).length + missing + 1 : Nat) : Int).toNat -
      (chunks .line d t).length - 1) = missing := by omega
  have hle : absorbed t missing ≤ missing := by
    rw [absorbed]
    split <;> omega
  have hn' : (Segmentation.of .line d t).count + missing =
      (chunks .line d t).length + missing := by rw [hcount]
  have hlines := chunks_splice_line hn' ⟨hne, hr⟩
  dsimp only
  rw [hmissing]
  refine ⟨hlines, ?_, ?_⟩
  · have hget := Segmentation.get_of_chunks_eq_concat (hlines.trans (List.append_assoc _ _ _).symm)
    rw [List.length_append, List.length_replicate] at hget
    convert hget using 2
    omega
  · rw [hlines, List.append_cancel_left_eq, List.append_cancel_right_eq, List.replicate_inj,
      absorbed]
    split
    case isTrue h =>
      simp only [h, and_self, not_true, iff_false]
      omega
    case isFalse h => simp [h]

theorem lines_splice_past_end_of_return :
    let t : Text := ['a', '\r']
    let written := splice .standard ⟨.line, .nth 4, none⟩ .into ['x'] t
    (chunks .line .standard t).length < (4 : Int) ∧ (['x'] : Text) ≠ [] ∧
      (∀ c ∈ (['x'] : Text), ChunkUnit.isLineBreak c = false) ∧
      chunks .line .standard written = [['a'], [], ['x']] ∧
      (Segmentation.of .line .standard written).get (4 - 1) = ['x'] := by
  intro t written
  have hn : (chunks .line .standard t).length < (4 : Int) := by decide
  have hne : (['x'] : Text) ≠ [] := by decide
  have hr : ∀ c ∈ (['x'] : Text), ChunkUnit.isLineBreak c = false :=
    List.forall_mem_singleton.2 rfl
  obtain ⟨hlines, hget, -⟩ := lines_splice_past_end .standard hn hne hr
  exact ⟨hn, hne, hr, hlines, hget⟩

theorem third_line_becomes_second :
    let t : Text := ['a', '\r']
    let written := splice .standard ⟨.line, .nth 3, none⟩ .into ['x'] t
    (chunks .line .standard t).length < (3 : Int) ∧ (['x'] : Text) ≠ [] ∧
      (∀ c ∈ (['x'] : Text), ChunkUnit.isLineBreak c = false) ∧
      chunks .line .standard written ≠ chunks .line .standard t ++ [[], ['x']] ∧
      (Segmentation.of .line .standard written).get 3 ≠ ['x'] :=
  ⟨by decide, by decide, List.forall_mem_singleton.2 rfl, by decide, by decide⟩

end ScriptValue
