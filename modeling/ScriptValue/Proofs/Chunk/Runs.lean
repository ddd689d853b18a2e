import ScriptValue.Proofs.Chunk.Delete
import ScriptValue.Proofs.Chunk.Nested
import Mathlib.Data.Set.Card

namespace ScriptValue

variable {α : Type}

/-- Units in a row that are no blanks, with nothing but a blank right before and behind them. -/
structure IsRun (blank : α → Bool) (us : List α) (c : Span) : Prop where
  start_lt_stop : c.start < c.stop
  inside {i : Nat} : c.start ≤ i → i < c.stop → us[i]?.all blank = false
  before {i : Nat} : i + 1 = c.start → us[i]?.all blank = true
  behind : us[c.stop]?.all blank = true

def endsAt [ChunkUnit α] (us : List α) (i : Nat) : Bool :=
  us[i]?.any ChunkUnit.isSentenceEnd && us[i + 1]?.all ChunkUnit.isBlank

/--
Units from the first that is not blank, in the sequence or behind an end, up to the next end; or
else up to the last unit that is not blank.
-/
structure IsSentence [ChunkUnit α] (us : List α) (c : Span) : Prop where
  start_lt_stop : c.start < c.stop
  head : us[c.start]?.all ChunkUnit.isBlank = false
  last : us[c.stop - 1]?.all ChunkUnit.isBlank = false
  opened {i : Nat} : i < c.start → us[i]?.all ChunkUnit.isBlank = false →
    ∃ j, i ≤ j ∧ j < c.start ∧ endsAt us j = true
  unended {i : Nat} : c.start ≤ i → i + 1 < c.stop → endsAt us i = false
  ended : endsAt us (c.stop - 1) = true ∨ ∀ i, c.stop ≤ i → us[i]?.all ChunkUnit.isBlank = true

/-- Spans of some form: all there are, in order, and nothing but blanks outside of them. -/
structure Segmentation.Covers (s : Segmentation α) (IsChunk : Span → Prop) (blank : α → Bool) :
    Prop where
  mem_spans_iff (c : Span) : c ∈ s.spans ↔ IsChunk c
  pairwise : s.spans.Pairwise fun c c' => c.stop ≤ c'.start
  outside {i : Nat} : (∀ c ∈ s.spans, ¬ (c.start ≤ i ∧ i < c.stop)) →
    s.units[i]?.all blank = true
  count_eq : s.count = {c | IsChunk c}.ncard

structure Distinct (IsChunk : Span → Prop) (blank : α → Bool) (us : List α) : Prop where
  start_lt_stop {c} : IsChunk c → c.start < c.stop
  head {c} : IsChunk c → us[c.start]?.all blank = false
  start_le {c c'} : IsChunk c → IsChunk c' → c'.start < c.stop → c'.start ≤ c.start
  stop_le {c c'} : IsChunk c → IsChunk c' → c'.start < c.stop → c'.stop ≤ c.stop

theorem Distinct.eq {IsChunk : Span → Prop} {blank : α → Bool} {us : List α}
    (h : Distinct IsChunk blank us) {c c' : Span} (hc : IsChunk c) (hc' : IsChunk c')
    (hlt : c'.start < c.stop) (hlt' : c.start < c'.stop) : c = c' := by
  have hstart : c.start = c'.start :=
    Nat.le_antisymm (h.start_le hc' hc hlt') (h.start_le hc hc' hlt)
  have hstop : c.stop = c'.stop := Nat.le_antisymm (h.stop_le hc' hc hlt') (h.stop_le hc hc' hlt)
  cases c
  cases c'
  simp_all

theorem distinct_isRun (blank : α → Bool) (us : List α) :
    Distinct (IsRun blank us) blank us where
  start_lt_stop h := h.start_lt_stop
  head h := h.inside (Nat.le_refl _) h.start_lt_stop
  start_le {c c'} h h' hlt := by
    by_contra hlater
    have hin := h.inside (i := c'.start - 1) (by omega) (by omega)
    rw [h'.before (by omega)] at hin
    cases hin
  stop_le {c c'} h h' hlt := by
    by_contra hlater
    have hin := h'.inside (i := c.stop) (by omega) (by omega)
    rw [h.behind] at hin
    cases hin

theorem distinct_isSentence [ChunkUnit α] (us : List α) :
    Distinct (IsSentence us) ChunkUnit.isBlank us where
  start_lt_stop h := h.start_lt_stop
  head h := h.head
  start_le {c c'} h h' hlt := by
    by_contra hlater
    obtain ⟨j, hle, hj, hend⟩ := h'.opened (Nat.not_le.1 hlater) h.head
    rw [h.unended hle (by omega)] at hend
    cases hend
  stop_le {c c'} h h' hlt := by
    have hstart := h.start_lt_stop
    by_contra hlater
    cases h.ended with
    | inl hend =>
      rw [h'.unended (by omega) (by omega)] at hend
      cases hend
    | inr hblank =>
      have hlast := h'.last
      rw [hblank (c'.stop - 1) (by omega)] at hlast
      cases hlast

theorem Segmentation.covers_of {s : Segmentation α} {IsChunk : Span → Prop} {blank : α → Bool}
    (hd : Distinct IsChunk blank s.units) (hordered : s.Ordered) (hspans : ∀ c ∈ s.spans, IsChunk c)
    (houtside : ∀ i, (∀ c ∈ s.spans, ¬ (c.start ≤ i ∧ i < c.stop)) →
      s.units[i]?.all blank = true) : s.Covers IsChunk blank := by
  have hmem (c : Span) : c ∈ s.spans ↔ IsChunk c := by
    refine ⟨hspans c, fun hc => ?_⟩
    by_contra hnot
    have hblank := houtside c.start fun c' hc' hin => by
      obtain rfl := hd.eq hc (hspans c' hc')
        (Nat.lt_of_le_of_lt hin.1 (hd.start_lt_stop hc)) hin.2
      exact hnot hc'
    rw [hd.head hc] at hblank
    cases hblank
  refine ⟨hmem, hordered.pairwise, fun h => houtside _ h, ?_⟩
  have hnodup : s.spans.Nodup := by
    refine hordered.pairwise.imp_of_mem fun {c c'} hc _ hle heq => ?_
    have hlt := hd.start_lt_stop (hspans c hc)
    rw [← heq] at hle
    omega
  have hset : {c | IsChunk c} = (s.spans.toFinset : Set Span) := by
    ext c
    simp [hmem]
  rw [hset, Set.ncard_coe_finset, List.toFinset_card_of_nodup hnodup]
  rfl

namespace Span.Cuts

variable {c : Span} {us before inner after : List α} {i : Nat} (h : c.Cuts us before inner after)

include h

theorem getElem?_before (hi : i < c.start) : us[i]? = before[i]? := by
  obtain ⟨rfl, rfl⟩ := h
  exact List.getElem?_append_left hi

theorem getElem?_inner (hle : c.start ≤ i) (hi : i < c.stop) : us[i]? = inner[i - c.start]? := by
  obtain ⟨rfl, rfl⟩ := h
  dsimp only at hle hi ⊢
  rw [List.getElem?_append_right hle, List.getElem?_append_left (by omega)]

theorem getElem?_after (hle : c.stop ≤ i) : us[i]? = after[i - c.stop]? := by
  obtain ⟨rfl, rfl⟩ := h
  dsimp only at hle ⊢
  rw [List.getElem?_append_right (by omega), List.getElem?_append_right (by omega)]
  congr 1
  omega

theorem stop_eq : c.stop = c.start + inner.length := by
  rw [h.eq_lengths]

end Span.Cuts

namespace Piece

section Layout

variable {Fits : Piece α → List α → Prop} {Bare : List α → Prop} {us : List α}

theorem all_getElem?_of_forall {p : α → Bool} (h : ∀ u ∈ us, p u = true) (i : Nat) :
    us[i]?.all p = true := by
  cases hu : us[i]? with
  | none => rfl
  | some u => exact h u (List.mem_of_getElem? hu)

theorem Layout.exists_before {xs ys : List (Piece α)} {p : Piece α}
    (h : Layout Fits Bare (xs ++ p :: ys) us) :
    ∃ rest, us = xs.flatMap units ++ (p.units ++ rest) ∧ Fits p rest ∧
      ∀ x ∈ xs.getLast?, Fits x (p.units ++ rest) := by
  induction xs generalizing us with
  | nil =>
    obtain ⟨rest, hus, hp, -⟩ := h.exists_cons
    exact ⟨rest, hus, hp, nofun⟩
  | cons x xs ih =>
    obtain ⟨vs, rfl, hx, hxs⟩ := Layout.exists_cons h
    obtain ⟨rest, rfl, hp, hbefore⟩ := ih hxs
    refine ⟨rest, by simp, hp, ?_⟩
    cases xs with
    | nil =>
      intro y hy
      obtain rfl := Option.some.inj hy
      exact hx
    | cons y ys =>
      rw [List.getLast?_cons_cons]
      exact hbefore

theorem Layout.exists_mem_spans {blank : α → Bool}
    (hfits : ∀ {p us}, Fits p us → (∀ u ∈ p.lead, blank u = true) ∧ p.close = [])
    (hbare : ∀ {us}, Bare us → ∀ u ∈ us, blank u = true) {ps : List (Piece α)}
    (h : Layout Fits Bare ps us) (offset : Nat) {i : Nat} (hi : us[i]?.all blank = false) :
    ∃ c ∈ spans offset ps, c.start ≤ offset + i ∧ offset + i < c.stop := by
  induction h generalizing offset i with
  | nil hus =>
    rw [all_getElem?_of_forall (hbare hus)] at hi
    cases hi
  | @cons p ps us hp _ ih =>
    obtain ⟨hlead, hclose⟩ := hfits hp
    rw [append_units, hclose, List.nil_append] at hi
-- the offset lies before the chunk, in it, or behind it
    by_cases hin : i < p.lead.length
    · rw [List.getElem?_append_left hin, all_getElem?_of_forall hlead] at hi
      cases hi
    · by_cases hbody : i < p.lead.length + p.body.length
      · exact ⟨_, List.mem_cons_self, by dsimp only; omega, by dsimp only; omega⟩
      · rw [List.getElem?_append_right (by omega), List.getElem?_append_right (by omega)] at hi
        have hnone : p.close.length = 0 := List.length_eq_zero_iff.2 hclose
        obtain ⟨c, hc, hin⟩ :=
          ih (offset + p.lead.length + p.body.length + p.close.length) hi
        exact ⟨c, List.mem_cons_of_mem _ hc, by omega⟩

end Layout

section Run

variable {blank : α → Bool} {p : Piece α} {us before rest : List α} {c : Span}

theorem Run.isBlank_before {xs : List (Piece α)} (h : Run blank p rest)
    (hxs : ∀ x ∈ xs.getLast?, Run blank x (p.units ++ rest)) :
    ∀ u ∈ (xs.flatMap units ++ p.lead).getLast?, blank u = true := by
  cases h with
  | @mk lead body _ hlead hne hbody =>
    cases lead with
    | cons v lead =>
      rw [List.getLast?_append_of_ne_nil _ (List.cons_ne_nil v lead)]
      exact fun u hu => hlead u (List.mem_of_getLast? hu)
    | nil =>
      cases List.eq_nil_or_concat' xs with
      | inl hnil =>
        rw [hnil]
        intro u hu
        cases hu
      | inr hconcat =>
        -- a run is followed by a blank, so no other one begins right behind it
        obtain ⟨ws, x, rfl⟩ := hconcat
        obtain ⟨v, body, rfl⟩ := List.exists_cons_of_ne_nil hne
        cases hxs x (by simp) with
        | mk _ _ _ hhead =>
          have hv := hhead v rfl
          rw [hbody v List.mem_cons_self] at hv
          cases hv

theorem Run.isRun (h : Run blank p rest) (hc : c.Cuts us before p.body (p.close ++ rest))
    (hbefore : ∀ u ∈ before.getLast?, blank u = true) : IsRun blank us c := by
  cases h with
  | @mk lead body _ _ hne hbody hrest =>
    have hstop : c.stop = c.start + body.length := hc.stop_eq
    have hpos := List.length_pos_iff.2 hne
    refine ⟨by omega, fun {i} hle hi => ?_, fun {i} hi => ?_, ?_⟩
    · have hlt : i - c.start < body.length := by omega
      rw [hc.getElem?_inner hle hi, List.getElem?_eq_getElem hlt]
      exact hbody _ (List.getElem_mem hlt)
    · have hlength : c.start = before.length := congrArg Span.start hc.eq_lengths
      rw [hc.getElem?_before (by omega), Option.all_eq_true]
      intro u hu
      refine hbefore u ?_
      rw [List.getLast?_eq_getElem?, ← hlength, ← hi]
      exact hu
    · rw [hc.getElem?_after (Nat.le_refl _), Nat.sub_self, List.nil_append,
        ← List.head?_eq_getElem?, Option.all_eq_true]
      exact hrest

end Run

section Sentence

variable [ChunkUnit α] {p : Piece α} {us before rest : List α} {c : Span}

theorem endsAt_append (before : List α) (u : α) (rest : List α) :
    endsAt (before ++ u :: rest) before.length = endsSentence u rest := by
  simp [endsAt, endsSentence, List.head?_eq_getElem?, List.getElem?_append_right]

theorem Unended.endsAt_eq_false {body : List α} (h : Unended body rest) (before : List α) {i : Nat}
    (hi : i < body.length) : endsAt (before ++ (body ++ rest)) (before.length + i) = false := by
  induction body generalizing before i with
  | nil => cases hi
  | cons u body ih =>
    cases i with
    | zero => exact (endsAt_append before u (body ++ rest)).trans h.1
    | succ i =>
      have hlater := ih h.2 (before ++ [u]) (Nat.lt_of_succ_lt_succ hi)
      rw [List.length_append, List.length_singleton, List.append_assoc, Nat.add_assoc,
        Nat.add_comm 1 i] at hlater
      exact hlater

theorem Unended.of_singleton {body : List α} {u : α} (h : Unended body [u]) (rest : List α) :
    Unended body (u :: rest) := by
  induction body with
  | nil => trivial
  | cons v body ih => exact ⟨(endsSentence_append rest []).trans h.1, ih h.2⟩

theorem Sentence.exists_isBlank_eq_false (h : Sentence p rest) :
    ∃ u ∈ p.units, ChunkUnit.isBlank u = false := by
  cases h with
  | @mk _ _ u _ _ _ _ hu => exact ⟨u, by simp [units], hu⟩

theorem Sentence.exists_endsSentence (h : Sentence p rest)
    (hrest : ∃ u ∈ rest, ChunkUnit.isBlank u = false) :
    ∃ body u, p.units = body ++ [u] ∧ endsSentence u rest = true := by
  cases h with
  | @mk lead body u _ _ _ _ _ hend =>
    refine ⟨lead ++ body, u, by simp [units], hend.resolve_right fun hblank => ?_⟩
    obtain ⟨v, hv, hvisible⟩ := hrest
    rw [hblank v hv] at hvisible
    cases hvisible

theorem Sentence.exists_end {xs : List (Piece α)} (h : Sentence p rest)
    (hxs : ∀ x ∈ xs.getLast?, Sentence x (p.units ++ rest))
    (hus : us = xs.flatMap units ++ (p.units ++ rest)) {i : Nat}
    (hi : i < (xs.flatMap units ++ p.lead).length)
    (hblank : us[i]?.all ChunkUnit.isBlank = false) :
    ∃ j, i ≤ j ∧ j < (xs.flatMap units ++ p.lead).length ∧ endsAt us j = true := by
  have hin : i < (xs.flatMap units).length := by
    by_contra hout
    have hlead : ∀ u ∈ p.lead, ChunkUnit.isBlank u = true := by
      cases h with
      | mk hlead => exact hlead
    rw [List.length_append] at hi
    rw [hus, List.getElem?_append_right (Nat.not_lt.1 hout), append_units,
      List.getElem?_append_left (by omega), all_getElem?_of_forall hlead] at hblank
    cases hblank
  cases List.eq_nil_or_concat' xs with
  | inl hnil =>
    rw [hnil] at hin
    cases hin
  | inr hconcat =>
    obtain ⟨ws, x, rfl⟩ := hconcat
    obtain ⟨v, hv, hvisible⟩ := h.exists_isBlank_eq_false
    obtain ⟨body, u, hunits, hend⟩ :=
      (hxs x (by simp)).exists_endsSentence ⟨v, List.mem_append_left rest hv, hvisible⟩
    have hbefore : (ws ++ [x]).flatMap units = ws.flatMap units ++ body ++ [u] := by
      rw [List.flatMap_append, List.flatMap_singleton, hunits, List.append_assoc]
    refine ⟨(ws.flatMap units ++ body).length, ?_, ?_, ?_⟩
    · rw [hbefore, List.length_append] at hin
      exact Nat.le_of_lt_succ hin
    · simp only [hbefore, List.length_append, List.length_singleton]
      omega
    · rw [hus, hbefore, List.append_assoc, List.singleton_append, endsAt_append]
      exact hend

theorem Sentence.isSentence (h : Sentence p rest)
    (hc : c.Cuts us before p.body (p.close ++ rest))
    (hopened : ∀ {i}, i < before.length → us[i]?.all ChunkUnit.isBlank = false →
      ∃ j, i ≤ j ∧ j < before.length ∧ endsAt us j = true) : IsSentence us c := by
  cases h with
  | @mk lead body u _ hlead hhead hbody hu hend =>
    have hstart : c.start = before.length := congrArg Span.start hc.eq_lengths
    have hstop : c.stop = c.start + (body.length + 1) := hc.stop_eq.trans (by simp)
    have hus : us = (before ++ body) ++ u :: rest := by
      rw [hc.eq_append]
      simp
    have hend' : endsAt us (c.stop - 1) = endsSentence u rest := by
      have hindex : c.stop - 1 = (before ++ body).length := by
        rw [List.length_append]
        omega
      rw [hindex, hus, endsAt_append]
    refine ⟨by omega, ?_, ?_, ?_, ?_, ?_⟩
    · rw [hc.getElem?_inner (Nat.le_refl _) (by omega), Nat.sub_self, ← List.head?_eq_getElem?]
      cases body with
      | nil => exact hu
      | cons v body => exact hhead v rfl
    · have hindex : c.stop - 1 - c.start = body.length := by omega
      rw [hc.getElem?_inner (by omega) (by omega), hindex, List.getElem?_concat_length]
      exact hu
    · rw [hstart]
      exact hopened
    · intro i hle hi
      obtain ⟨j, rfl⟩ := Nat.exists_eq_add_of_le hle
      have hunended := hbody.of_singleton rest
      rw [hus, List.append_assoc, hstart]
      exact hunended.endsAt_eq_false before (by omega)
    · refine hend.imp (fun he => hend'.trans he) fun hblank i hi => ?_
      rw [hc.getElem?_after hi]
      exact all_getElem?_of_forall hblank _

end Sentence

variable [DecidableEq α] [ChunkUnit α] {kind : ChunkKind} {d : Delimiters} {us : List α} {c : Span}

theorem exists_cuts_of_mem_spans (hc : c ∈ (Segmentation.of kind d us).spans) :
    ∃ (xs : List (Piece α)) (p : Piece α) (rest : List α), Fits kind d p rest ∧
      (∀ x ∈ xs.getLast?, Fits kind d x (p.units ++ rest)) ∧
      c.Cuts us (xs.flatMap units ++ p.lead) p.body (p.close ++ rest) := by
  rw [Segmentation.spans_eq_map_span, List.mem_map] at hc
  obtain ⟨i, hi, rfl⟩ := hc
  rw [List.mem_range, length_cut] at hi
  have hcut := cut_eq_append hi
  have hspan := span_of_cut hcut
  rw [List.length_take_of_le (Nat.le_of_lt hi)] at hspan
  obtain ⟨rest, hus, hp, hbefore⟩ := (hcut ▸ (reads_cut kind d).layout us).exists_before
  refine ⟨_, _, rest, hp, hbefore, ?_, ?_⟩
  · exact hus.trans (by rw [append_units, List.append_assoc])
  · rw [List.length_append]
    exact hspan

theorem covers_of_fits {IsChunk : Span → Prop} {blank : α → Bool} (d : Delimiters)
    (hd : Distinct IsChunk blank us)
    (hspans : ∀ c ∈ (Segmentation.of kind d us).spans, IsChunk c)
    (hfits : ∀ {p : Piece α} {us}, Fits kind d p us → (∀ u ∈ p.lead, blank u = true) ∧ p.close = [])
    (hbare : ∀ {us : List α}, Bare kind us → ∀ u ∈ us, blank u = true) :
    (Segmentation.of kind d us).Covers IsChunk blank := by
  refine Segmentation.covers_of hd (Segmentation.ordered_of kind d us) hspans fun i hout => ?_
  by_contra hi
  rw [Bool.not_eq_true] at hi
  obtain ⟨c, hc, hin⟩ := ((reads_cut kind d).layout us).exists_mem_spans hfits hbare 0 hi
  rw [Nat.zero_add] at hin
  exact hout c hc hin

theorem covers_runs {blank : α → Bool} (hfits : Fits kind d = Run blank)
    (hbare : Bare kind = fun us : List α => ∀ u ∈ us, blank u = true) (us : List α) :
    (Segmentation.of kind d us).Covers (IsRun blank us) blank := by
  refine covers_of_fits d (distinct_isRun blank us) (fun c hc => ?_) ?_ ?_
  · obtain ⟨xs, p, rest, hp, hxs, hcuts⟩ := exists_cuts_of_mem_spans hc
    rw [hfits] at hp hxs
    exact hp.isRun hcuts (hp.isBlank_before hxs)
  · intro p us hp
    rw [hfits] at hp
    cases hp with
    | mk hlead => exact ⟨hlead, rfl⟩
  · intro us hus
    rwa [hbare] at hus

theorem covers_sentences (d : Delimiters) (us : List α) :
    (Segmentation.of .sentence d us).Covers (IsSentence us) ChunkUnit.isBlank := by
  refine covers_of_fits d (distinct_isSentence us) (fun c hc => ?_) ?_ fun h => h
  · obtain ⟨xs, p, rest, hp, hxs, hcuts⟩ := exists_cuts_of_mem_spans hc
    have hp : Sentence p rest := hp
    refine hp.isSentence hcuts (hp.exists_end hxs ?_)
    rw [append_units, ← List.append_assoc]
    exact hcuts.eq_append
  · intro p us hp
    cases hp with
    | mk hlead => exact ⟨hlead, rfl⟩

end Piece

theorem endsAt_of_mem_dropLast [DecidableEq α] [ChunkUnit α] {s : Segmentation α}
    (h : s.Covers (IsSentence s.units) ChunkUnit.isBlank) :
    ∀ c ∈ s.spans.dropLast, endsAt s.units (c.stop - 1) = true := by
  intro c hc
  cases List.eq_nil_or_concat' s.spans with
  | inl hnil =>
    rw [hnil] at hc
    cases hc
  | inr hconcat =>
    obtain ⟨cs, c', hspans⟩ := hconcat
    have hpairwise := h.pairwise
    have hmem := h.mem_spans_iff
    rw [hspans, List.dropLast_concat] at hc
    rw [hspans, List.pairwise_append] at hpairwise
    rw [hspans] at hmem
    have hle : c.stop ≤ c'.start := hpairwise.2.2 c hc c' List.mem_cons_self
    have hlast : IsSentence s.units c' := (hmem c').1 (by simp)
    refine ((hmem c).1 (List.mem_append_left _ hc)).ended.resolve_right fun hblank => ?_
    have hhead := hlast.head
    rw [hblank _ hle] at hhead
    cases hhead

theorem covers_runs_and_sentences [DecidableEq α] [ChunkUnit α] (d : Delimiters) (us : List α) :
    (Segmentation.of .word d us).Covers (IsRun ChunkUnit.isBlank us) ChunkUnit.isBlank ∧
      (Segmentation.of .paragraph d us).Covers (IsRun ChunkUnit.isLineBreak us)
        ChunkUnit.isLineBreak ∧
      (Segmentation.of .sentence d us).Covers (IsSentence us) ChunkUnit.isBlank ∧
      ∀ c ∈ (Segmentation.of .sentence d us).spans.dropLast, endsAt us (c.stop - 1) = true :=
  ⟨Piece.covers_runs rfl rfl us, Piece.covers_runs rfl rfl us, Piece.covers_sentences d us,
    endsAt_of_mem_dropLast (Piece.covers_sentences d us)⟩

end ScriptValue
