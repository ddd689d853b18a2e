import ScriptValue.Proofs.Chunk.Bounds

namespace ScriptValue.Piece

variable {α : Type}

/-- Pieces of a kind stay what they are when the units about their chunks are cut away. -/
structure Stable (Fits : Piece α → List α → Prop) : Prop where
  of_append {p us vs} : Fits p (us ++ vs) → Fits p us
  unled {p us} : Fits p us → Fits ⟨[], p.body, p.close⟩ us
  unclosed {p us} : Fits p us → p.body ≠ [] → Fits ⟨p.lead, p.body, []⟩ []
  lead_eq_nil {p us} : Fits p us → p.body = [] → p.lead = []

theorem forall_head?_of_append {P : α → Prop} {us vs : List α}
    (h : ∀ u ∈ (us ++ vs).head?, P u) : ∀ u ∈ us.head?, P u := by
  cases us with
  | nil => simp
  | cons u us => exact h

theorem stable_single : Stable (Single (α := α)) where
  of_append := by
    intro p us vs h
    cases h with
    | mk u => exact .mk u us
  unled := by
    intro p us h
    cases h with
    | mk u => exact .mk u us
  unclosed := by
    intro p us h _
    cases h with
    | mk u => exact .mk u []
  lead_eq_nil := by
    intro p us h _
    cases h with
    | mk => rfl

theorem stable_whole : Stable (Whole (α := α)) where
  of_append := by
    intro p us vs h
    generalize hws : us ++ vs = ws at h
    cases h with
    | mk hne =>
      rw [(List.append_eq_nil_iff.1 hws).1]
      exact .mk hne
  unled := by
    intro p us h
    cases h with
    | mk hne => exact .mk hne
  unclosed := by
    intro p us h _
    cases h with
    | mk hne => exact .mk hne
  lead_eq_nil := by
    intro p us h _
    cases h with
    | mk => rfl

theorem stable_run (sep : α → Bool) : Stable (Run sep) where
  of_append := by
    intro p us vs h
    cases h with
    | mk hlead hne hbody hrest => exact .mk hlead hne hbody (forall_head?_of_append hrest)
  unled := by
    intro p us h
    cases h with
    | mk _ hne hbody hrest => exact .mk (List.forall_mem_nil _) hne hbody hrest
  unclosed := by
    intro p us h _
    cases h with
    | mk hlead hne hbody => exact .mk hlead hne hbody (by simp)
  lead_eq_nil := by
    intro p us h hbody
    cases h with
    | mk _ hne => exact absurd hbody hne

theorem stable_terminated {sep : α → Bool} {Closes : List α → List α → Prop}
    (hcloses : ∀ {close us vs}, Closes close (us ++ vs) → Closes close us) :
    Stable (Terminated sep Closes) where
  of_append := by
    intro p us vs h
    generalize hws : us ++ vs = ws at h
    cases h with
    | mk hbody hclose => exact .mk hbody (hcloses (hws ▸ hclose))
    | last hbody hne =>
      rw [(List.append_eq_nil_iff.1 hws).1]
      exact .last hbody hne
  unled := by
    intro p us h
    cases h with
    | mk hbody hclose => exact .mk hbody hclose
    | last hbody hne => exact .last hbody hne
  unclosed := by
    intro p us h hne
    cases h with
    | mk hbody => exact .last hbody hne
    | last hbody => exact .last hbody hne
  lead_eq_nil := by
    intro p us h _
    cases h with
    | mk => rfl
    | last => rfl

section Kinds

variable [ChunkUnit α]

theorem endsSentence_of_append {u : α} {us vs : List α} (h : endsSentence u (us ++ vs) = true) :
    endsSentence u us = true := by
  cases us with
  | nil =>
    rw [endsSentence, Bool.and_eq_true] at h
    simp [endsSentence, h.1]
  | cons v us => exact h

theorem stable_sentence : Stable (Sentence (α := α)) where
  of_append := by
    intro p us vs h
    cases h with
    | mk hlead hhead hbody hu hend =>
      refine .mk hlead hhead hbody hu (hend.imp endsSentence_of_append ?_)
      intro hblank v hv
      exact hblank v (List.mem_append_left vs hv)
  unled := by
    intro p us h
    cases h with
    | mk _ hhead hbody hu hend => exact .mk (List.forall_mem_nil _) hhead hbody hu hend
  unclosed := by
    intro p us h _
    cases h with
    | mk hlead hhead hbody hu => exact .mk hlead hhead hbody hu (.inr (List.forall_mem_nil _))
  lead_eq_nil := by
    intro p us h hbody
    cases h with
    | mk => simp at hbody

theorem LineEnd.of_append {close us vs : List α} (h : LineEnd close (us ++ vs)) :
    LineEnd close us := by
  cases h with
  | pair hu hv => exact .pair hu hv
  | single hu hpair => exact .single hu fun hr => forall_head?_of_append (hpair hr)

theorem stable_fits [DecidableEq α] (kind : ChunkKind) (d : Delimiters) :
    Stable (Fits (α := α) kind d) := by
  have hdelimited : kind.isDelimited = true → Stable (Fits (α := α) kind d) := by
    intro hkind
    cases h : (separator? kind d : Option α) with
    | some u =>
      rw [fits_of_some hkind h]
      exact stable_terminated id
    | none =>
      rw [fits_of_none hkind h]
      exact stable_whole
  cases kind with
  | character => exact stable_single
  | word => exact stable_run _
  | sentence => exact stable_sentence
  | paragraph => exact stable_run _
  | line => exact stable_terminated LineEnd.of_append
  | item => exact hdelimited rfl
  | column => exact hdelimited rfl
  | row => exact hdelimited rfl

end Kinds

def unled : List (Piece α) → List (Piece α)
  | [] => []
  | p :: ps => ⟨[], p.body, p.close⟩ :: ps

def unclosed : List (Piece α) → List (Piece α)
  | [] => []
  | [p] => if p.body = [] then [] else [⟨p.lead, p.body, []⟩]
  | p :: q :: ps => p :: unclosed (q :: ps)

theorem map_body_unled (ps : List (Piece α)) : (unled ps).map body = ps.map body := by
  cases ps <;> rfl

theorem getD_map_body_unclosed (ps : List (Piece α)) (n : Nat) :
    ((unclosed ps).map body).getD n [] = (ps.map body).getD n [] := by
  induction ps using unclosed.induct generalizing n with
  | case1 => rfl
  | case2 p hbody => cases n <;> simp [unclosed, hbody]
  | case3 p hbody => simp [unclosed, hbody]
  | case4 p q ps ih =>
    cases n with
    | zero => rfl
    | succ n => exact ih n

theorem spans_append (offset : Nat) (ps qs : List (Piece α)) :
    spans offset (ps ++ qs) = spans offset ps ++ spans (offset + (ps.flatMap units).length) qs := by
  induction ps generalizing offset with
  | nil => rfl
  | cons p ps ih =>
    rw [List.cons_append, spans, ih, spans, List.cons_append, List.flatMap_cons,
      List.length_append, length_units]
    simp only [Nat.add_assoc]

theorem spans_unled (offset : Nat) (p : Piece α) (ps : List (Piece α)) :
    spans (offset + p.lead.length) (unled (p :: ps)) = spans offset (p :: ps) := rfl

theorem stop_of_mem_getLast? {offset : Nat} {ps : List (Piece α)}
    (hlead : ∀ p ∈ ps, p.body = [] → p.lead = []) {c : Span}
    (hc : c ∈ (spans offset ps).getLast?) :
    c.stop = offset + ((unclosed ps).flatMap units).length := by
  induction ps using unclosed.induct generalizing offset with
  | case1 => simp [spans] at hc
  | case2 p hbody =>
    have heq : c = ⟨_, offset + p.lead.length + p.body.length⟩ := (Option.some.inj hc).symm
    rw [heq]
    simp [unclosed, hbody, hlead p List.mem_cons_self hbody]
  | case3 p hbody =>
    have heq : c = ⟨_, offset + p.lead.length + p.body.length⟩ := (Option.some.inj hc).symm
    rw [heq]
    simp [unclosed, hbody, units, Nat.add_assoc]
  | case4 p q ps ih =>
    have hlater := ih (fun p' hp' => hlead p' (List.mem_cons_of_mem p hp')) hc
    rw [hlater, unclosed, List.flatMap_cons, List.length_append, length_units]
    omega

namespace Layout

variable {Fits : Piece α → List α → Prop} {Bare : List α → Prop} {us : List α}

theorem exists_of_mem {ps : List (Piece α)} (h : Layout Fits Bare ps us) {p : Piece α}
    (hp : p ∈ ps) : ∃ vs, Fits p vs := by
  induction h with
  | nil => simp at hp
  | @cons q _ us hq _ ih =>
    cases List.mem_cons.1 hp with
    | inl heq => exact ⟨us, heq ▸ hq⟩
    | inr hp => exact ih hp

theorem drop {ps qs : List (Piece α)} (h : Layout Fits Bare (ps ++ qs) us) :
    ∃ vs, us = ps.flatMap units ++ vs ∧ Layout Fits Bare qs vs := by
  induction ps generalizing us with
  | nil => exact ⟨us, rfl, h⟩
  | cons p ps ih =>
    cases h with
    | cons _ hps =>
      obtain ⟨vs, rfl, hqs⟩ := ih hps
      exact ⟨vs, by simp, hqs⟩

theorem unled (hs : Stable Fits) {p : Piece α} {ps : List (Piece α)}
    (h : Layout Fits Bare (p :: ps) us) :
    ∃ vs, us = p.lead ++ vs ∧ Layout Fits Bare (Piece.unled (p :: ps)) vs := by
  cases h with
  | @cons _ _ us hp hps => exact ⟨_, by simp [units], .cons (hs.unled hp) hps⟩

theorem unclosed (hs : Stable Fits) (hb : Bare []) {ps qs : List (Piece α)}
    (h : Layout Fits Bare (ps ++ qs) us) :
    ∃ vs, us = (Piece.unclosed ps).flatMap units ++ vs ∧
      Layout Fits Bare (Piece.unclosed ps) ((Piece.unclosed ps).flatMap units) := by
  induction ps using Piece.unclosed.induct generalizing us with
  | case1 => exact ⟨us, rfl, .nil hb⟩
  | case2 p hbody =>
    rw [Piece.unclosed, if_pos hbody]
    exact ⟨us, rfl, .nil hb⟩
  | case3 p hbody =>
    rw [Piece.unclosed, if_neg hbody]
    cases h with
    | @cons _ _ us hp _ =>
      refine ⟨p.close ++ us, by simp [units], ?_⟩
      exact .cons (hs.unclosed hp hbody) (.nil hb)
  | case4 p q ps ih =>
    cases h with
    | cons hp hps =>
      obtain ⟨vs, rfl, hlayout⟩ := ih hps
      rw [Piece.unclosed, List.flatMap_cons]
      exact ⟨vs, by simp, .cons (hs.of_append hp) hlayout⟩

end Layout

section Ranges

variable [DecidableEq α] [ChunkUnit α] {kind : ChunkKind} {d : Delimiters} {us : List α}
  {xs ms ys : List (Piece α)}

theorem clampedBounds_nth {m n : Nat} (hm : 1 ≤ m) (count : Nat) :
    ChunkSpec.clampedBounds ⟨kind, .nth m, some (.nth n)⟩ count = (m, n) := by
  simp [ChunkSpec.clampedBounds, ChunkSpec.bounds, Ordinal.resolve, hm]

theorem spans_of_cut (hcut : cut kind d us = xs ++ (ms ++ ys)) :
    ∃ cs, (Segmentation.of kind d us).spans =
      spans 0 xs ++ (spans (xs.flatMap units).length ms ++ cs) := by
  change ∃ cs, spans 0 (cut kind d us) = _
  rw [hcut, spans_append, spans_append, Nat.zero_add]
  exact ⟨_, rfl⟩

theorem chunk?_add_one {cs : List Span} {i : Nat}
    (hspans : (Segmentation.of kind d us).spans = spans 0 xs ++ cs) :
    (Segmentation.of kind d us).chunk? (xs.length + (i + 1) : Nat) = cs[i]? := by
  rw [Segmentation.chunk?_of_pos (by omega), hspans, List.getElem?_append_right (by simp; omega),
    length_spans]
  congr 1
  omega

theorem range_of_cut {p : Piece α} {ps : List (Piece α)}
    (hcut : cut kind d us = xs ++ (p :: ps ++ ys))
    (hlead : ∀ q ∈ unled (p :: ps), q.body = [] → q.lead = []) :
    (Segmentation.of kind d us).range
        ⟨kind, .nth (xs.length + 1 : Nat), some (.nth (xs.length + (ps.length + 1) : Nat))⟩ =
      ⟨(xs.flatMap units ++ p.lead).length, (xs.flatMap units ++ p.lead).length +
        ((unclosed (unled (p :: ps))).flatMap units).length⟩ := by
  obtain ⟨cs, hspans⟩ := spans_of_cut hcut
  have hcount : xs.length + (ps.length + 1) ≤ (Segmentation.of kind d us).count := by
    rw [Segmentation.count, hspans]
    simp
  have hfirst : (Segmentation.of kind d us).span (xs.length + 1 : Nat) = ⟨_, _⟩ :=
    Segmentation.span_of_chunk? (chunk?_add_one hspans)
  obtain ⟨c, hc⟩ : ∃ c, (spans (xs.flatMap units).length (p :: ps)).getLast? = some c := ⟨_, rfl⟩
  have hlast : (Segmentation.of kind d us).span (xs.length + (ps.length + 1) : Nat) = c := by
    apply Segmentation.span_of_chunk?
    rw [chunk?_add_one hspans, List.getElem?_append_left (by simp), ← hc, List.getLast?_eq_getElem?,
      length_spans]
    rfl
  have hstop := stop_of_mem_getLast? hlead (c := c) (spans_unled _ p ps ▸ hc)
  rw [Segmentation.range_of_le (clampedBounds_nth (by omega) _) (by omega) (by omega),
    Nat.min_eq_left hcount, hfirst, hlast, hstop, List.length_append]
  rfl

theorem cut_extract {p : Piece α} {ps : List (Piece α)}
    (hcut : cut kind d us = xs ++ (p :: ps ++ ys)) :
    cut kind d (extract d
        ⟨kind, .nth (xs.length + 1 : Nat), some (.nth (xs.length + (ps.length + 1) : Nat))⟩ us) =
      unclosed (unled (p :: ps)) := by
  have hs := stable_fits (α := α) kind d
  have hlayout := hcut ▸ (reads_cut kind d).layout us
  obtain ⟨vs, hvs, hrange⟩ := hlayout.drop
  obtain ⟨ws, hws, hunled⟩ := Layout.unled hs hrange
  have hunled : Layout (Fits kind d) (Bare kind) (unled (p :: ps) ++ ys) ws := hunled
  obtain ⟨rest, hrest, hclosed⟩ := Layout.unclosed hs (bare_nil kind) hunled
  have hlead : ∀ q ∈ unled (p :: ps), q.body = [] → q.lead = [] := by
    intro q hq
    obtain ⟨_, hq⟩ := hunled.exists_of_mem (List.mem_append_left ys hq)
    exact hs.lead_eq_nil hq
  have hus : us = (xs.flatMap units ++ p.lead) ++
      ((unclosed (unled (p :: ps))).flatMap units ++ rest) := by
    rw [hvs, hws, hrest, List.append_assoc]
  rw [extract, Segmentation.extract, range_of_cut hcut hlead]
  change cut kind d (Span.slice _ us) = _
  rw [hus, slice_append, cut_eq_iff]
  exact hclosed

end Ranges

end ScriptValue.Piece

namespace ScriptValue.Segmentation

variable {α : Type}

theorem exists_split {zs : List α} (m n : Nat) (h : m + n < zs.length) :
    ∃ xs p ps ys, zs = xs ++ (p :: ps ++ ys) ∧ xs.length = m ∧ ps.length = n := by
  have hm : m < zs.length := by omega
  refine ⟨zs.take m, zs[m], (zs.drop (m + 1)).take n, (zs.drop (m + 1)).drop n, ?_, ?_, ?_⟩
  · rw [List.cons_append, List.take_append_drop, ← List.drop_eq_getElem_cons hm,
      List.take_append_drop]
  · exact List.length_take_of_le (Nat.le_of_lt hm)
  · exact List.length_take_of_le (by rw [List.length_drop]; omega)

variable [DecidableEq α] [ChunkUnit α]

theorem get_eq_getD {kind : ChunkKind} {d : Delimiters} {us : List α} {n : Int} (h : 1 ≤ n) :
    (Segmentation.of kind d us).get n = (chunks kind d us).getD (n.toNat - 1) [] := by
  rw [get, ← map_slice_of, List.getD_eq_getElem?_getD, List.getElem?_map, ← chunk?_of_pos h]
  cases hchunk : (Segmentation.of kind d us).chunk? n with
  | some c =>
    rw [span_of_chunk? hchunk]
    rfl
  | none =>
    rw [span_of_none hchunk]
    exact List.drop_take_self

/-- The chunks of what is cut out for a range are the chunks of the range, and no others. -/
theorem get_extract (kind : ChunkKind) (d : Delimiters) (us : List α) {i j k : Int} (hi : 1 ≤ i)
    (hij : i ≤ j) (hj : j ≤ (Segmentation.of kind d us).count) (hk : 1 ≤ k) :
    (Segmentation.of kind d
        (ScriptValue.extract d ⟨kind, .nth i, some (.nth j)⟩ us)).get k =
      if i + k - 1 ≤ j then (Segmentation.of kind d us).get (i + k - 1) else [] := by
  have hlength : (Segmentation.of kind d us).count = (Piece.cut kind d us).length :=
    Piece.length_spans 0 _
  obtain ⟨xs, p, ps, ys, hcut, hxs, hps⟩ :=
    exists_split (i - 1).toNat (j - i).toNat (show _ < (Piece.cut kind d us).length by omega)
  obtain rfl : i = (xs.length + 1 : Nat) := by omega
  obtain rfl : j = (xs.length + (ps.length + 1) : Nat) := by omega
  rw [get_eq_getD hk, chunks, Piece.cut_extract hcut, Piece.getD_map_body_unclosed,
    Piece.map_body_unled, List.getD_eq_getElem?_getD]
  split
  · have hindex : (((xs.length + 1 : Nat) : Int) + k - 1).toNat - 1 - xs.length = k.toNat - 1 := by
      omega
    rw [get_eq_getD (by omega), chunks, hcut, List.map_append, List.map_append,
      List.getD_eq_getElem?_getD, List.getElem?_append_right (by simp; omega),
      List.length_map, hindex, List.getElem?_append_left (by simp; omega)]
  · rw [List.getElem?_eq_none (by simp; omega), Option.getD_none]

theorem get_extract_of_pairs :
    let us := "a\r\nb\r\n\r\nc".toList
    (1 : Int) ≤ 2 ∧ (2 : Int) ≤ 3 ∧ (3 : Int) ≤ (Segmentation.of .line .standard us).count ∧
      (Segmentation.of .line .standard
          (ScriptValue.extract .standard ⟨.line, .nth 2, some (.nth 3)⟩ us)).get 1 =
        if (2 : Int) + 1 - 1 ≤ 3 then (Segmentation.of .line .standard us).get (2 + 1 - 1)
        else [] := by
  intro us
  have hcount : (3 : Int) ≤ (Segmentation.of .line .standard us).count := by decide
  have hij : (2 : Int) ≤ 3 := by decide
  have hi : (1 : Int) ≤ 2 := by decide
  have hk : (1 : Int) ≤ 1 := by decide
  exact ⟨hi, hij, hcount, get_extract .line .standard us hi hij hcount hk⟩

end ScriptValue.Segmentation
