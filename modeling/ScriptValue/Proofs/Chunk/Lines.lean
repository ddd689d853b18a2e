import ScriptValue.Proofs.Chunk.Append

namespace ScriptValue

variable {α : Type} [ChunkUnit α]

/--
A sequence as lines, each followed by one of the `breaks`; only the last line may do without, where
the sequence does not end in a break.
-/
structure Lined (breaks : List (List α)) (us : List α) (ls ends : List (List α)) : Prop where
  eq_flatten : us = (List.zipWith (· ++ ·) ls (ends ++ [[]])).flatten
  mem_breaks : ∀ e ∈ ends, e ∈ breaks
  length_ends : ends.length =
    if us.getLast?.any ChunkUnit.isLineBreak = true then ls.length else ls.length - 1
  isLineBreak_eq_false : ∀ l ∈ ls, ∀ u ∈ l, ChunkUnit.isLineBreak u = false
  not_parted (i : Nat) (u v : α) : ChunkUnit.isReturn u = true → ChunkUnit.isFeed v = true →
    ends[i]? = some [u] → ls[i + 1]? = some [] → ends[i + 1]? ≠ some [v]

namespace Piece

theorem lineEnd_nil_iff {e : List α} :
    LineEnd e [] ↔ (∃ u v, ChunkUnit.isReturn u = true ∧ ChunkUnit.isFeed v = true ∧ e = [u, v]) ∨
      ∃ u, ChunkUnit.isLineBreak u = true ∧ e = [u] := by
  constructor
  · intro h
    cases h with
    | pair hu hv => exact .inl ⟨_, _, hu, hv, rfl⟩
    | single hu => exact .inr ⟨_, hu, rfl⟩
  · rintro (⟨u, v, hu, hv, rfl⟩ | ⟨u, hu, rfl⟩)
    · exact .pair hu hv
    · exact .single hu (by simp)

theorem LineEnd.nil {e us : List α} (h : LineEnd e us) : LineEnd e [] :=
  .of_append (List.nil_append us ▸ h)

theorem LineEnd.any_getLast? [LawfulChunkUnit α] {e us : List α} (h : LineEnd e us)
    (l : List α) : (l ++ e).getLast?.any ChunkUnit.isLineBreak = true := by
  have hne := closing_lineEnd.ne_nil h
  rw [List.getLast?_append_of_ne_nil _ hne, List.getLast?_eq_some_getLast hne]
  exact closing_lineEnd.sep_eq_true h _ (List.getLast?_eq_some_getLast hne)

end Piece

namespace Lined

open Piece

variable {breaks : List (List α)} {us l e : List α} {ls ends : List (List α)}

theorem ne_nil_of_ne_nil (h : Lined breaks us ls ends) (hus : us ≠ []) : ls ≠ [] := by
  rintro rfl
  exact hus h.eq_flatten

theorem head?_eq (h : Lined breaks us ([] :: ls) (e :: ends)) (he : e ≠ []) :
    us.head? = e.head? := by
  have hus : us = e ++ (List.zipWith (· ++ ·) ls (ends ++ [[]])).flatten := by
    simpa using h.eq_flatten
  rw [hus, List.head?_append_of_ne_nil _ he]

theorem nil : Lined breaks ([] : List α) [] [] :=
  ⟨rfl, List.forall_mem_nil _, rfl, List.forall_mem_nil _, fun _ _ _ _ _ h => by simp at h⟩

theorem last (hl : ∀ u ∈ l, ChunkUnit.isLineBreak u = false) : Lined breaks l [l] [] where
  eq_flatten := by simp
  mem_breaks := List.forall_mem_nil _
  length_ends := by
    rw [if_neg]
    · rfl
    · rw [Bool.not_eq_true, Option.any_eq_false]
      exact fun u hu => by simp [hl u (List.mem_of_getLast? hu)]
  isLineBreak_eq_false := List.forall_mem_singleton.2 hl
  not_parted := by simp

theorem cons [LawfulChunkUnit α] (hl : ∀ u ∈ l, ChunkUnit.isLineBreak u = false) (he : LineEnd e us)
    (hmem : e ∈ breaks) (hnil : us = [] → ls = []) (h : Lined breaks us ls ends) :
    Lined breaks (l ++ (e ++ us)) (l :: ls) (e :: ends) where
  eq_flatten := by simpa using h.eq_flatten
  mem_breaks := List.forall_mem_cons.2 ⟨hmem, h.mem_breaks⟩
  length_ends := by
    have hlength := h.length_ends
    cases us with
    | nil =>
      rw [hnil rfl] at hlength
      rw [List.append_nil, if_pos (he.any_getLast? l), hnil rfl]
      simpa using hlength
    | cons v us =>
      have hpos := List.length_pos_iff.2 (h.ne_nil_of_ne_nil (List.cons_ne_nil v us))
      rw [List.getLast?_append_of_ne_nil _ (by simp),
        List.getLast?_append_of_ne_nil _ (List.cons_ne_nil v us), List.length_cons, hlength]
      split
      case isTrue => rfl
      case isFalse => simp; omega
  isLineBreak_eq_false := List.forall_mem_cons.2 ⟨hl, h.isLineBreak_eq_false⟩
  not_parted := by
    intro i u v hu hv hi hline hnext
    cases i with
    | succ i => exact h.not_parted i u v hu hv hi hline hnext
    | zero =>
      obtain rfl : e = [u] := by simpa using hi
      obtain ⟨ls, rfl⟩ : ∃ ls', ls = [] :: ls' := by
        cases ls with
        | nil => simp at hline
        | cons m ls => exact ⟨ls, by simpa using hline⟩
      obtain ⟨ends, rfl⟩ : ∃ ends', ends = [v] :: ends' := by
        cases ends with
        | nil => simp at hnext
        | cons m ends => exact ⟨ends, by simpa using hnext⟩
      cases he with
      | single _ hpair =>
        have hfeed := hpair hu v (by rw [h.head?_eq (List.cons_ne_nil v [])]; rfl)
        rw [hv] at hfeed
        cases hfeed

theorem exists_of_layout [LawfulChunkUnit α] (hbreaks : ∀ e, LineEnd e [] → e ∈ breaks)
    {ps : List (Piece α)} (h : Layout (Terminated ChunkUnit.isLineBreak LineEnd) (· = []) ps us) :
    ∃ ends, Lined breaks us (ps.map body) ends := by
  induction h with
  | nil hus =>
    rw [hus]
    exact ⟨[], nil⟩
  | @cons p ps us hp hps ih =>
    obtain ⟨ends, hlined⟩ := ih
    cases hp with
    | @mk body close _ hbody hclose =>
      rw [append_units, List.nil_append]
      refine ⟨close :: ends, hlined.cons hbody hclose (hbreaks close hclose.nil) ?_⟩
      rintro rfl
      rw [← reads_lines.eq_iff.2 hps]
      rfl
    | @last body hbody =>
      rw [← reads_lines.eq_iff.2 hps, append_units]
      exact ⟨[], by simpa [lines] using last hbody⟩

theorem tail (h : Lined breaks us (l :: ls) (e :: ends)) {vs : List α} (hvs : vs ≠ [])
    (hus : us = l ++ (e ++ vs)) (hrest : vs = (List.zipWith (· ++ ·) ls (ends ++ [[]])).flatten) :
    Lined breaks vs ls ends where
  eq_flatten := hrest
  mem_breaks := (List.forall_mem_cons.1 h.mem_breaks).2
  length_ends := by
    have hlength := h.length_ends
    have hpos : 0 < ls.length := List.length_pos_iff.2 (by rintro rfl; exact hvs hrest)
    rw [hus, List.getLast?_append_of_ne_nil _ (by simp [hvs]),
      List.getLast?_append_of_ne_nil _ hvs, List.length_cons, List.length_cons] at hlength
    split at hlength
    case isTrue hlast => rw [if_pos hlast]; omega
    case isFalse hlast => rw [if_neg hlast]; omega
  isLineBreak_eq_false := (List.forall_mem_cons.1 h.isLineBreak_eq_false).2
  not_parted i u v hu hv hi hline := h.not_parted (i + 1) u v hu hv hi hline

section

variable (hbreaks : ∀ e ∈ breaks, LineEnd e [])

include hbreaks

theorem eq_nil_of_flatten_eq_nil [LawfulChunkUnit α] (h : Lined breaks us (l :: ls) (e :: ends))
    (hrest : (List.zipWith (· ++ ·) ls (ends ++ [[]])).flatten = []) : ls = [] := by
  have hclose := hbreaks e (h.mem_breaks e List.mem_cons_self)
  have hlast : us.getLast?.any ChunkUnit.isLineBreak = true := by
    have hus : us = l ++ e := by simpa [hrest] using h.eq_flatten
    rw [hus]
    exact hclose.any_getLast? l
  have hlength := h.length_ends
  rw [if_pos hlast, List.length_cons, List.length_cons] at hlength
  cases ls with
  | nil => rfl
  | cons m ls =>
    cases ends with
    | nil => simp at hlength
    | cons e' ends =>
      have hne' := closing_lineEnd.ne_nil (hbreaks e' (h.mem_breaks e' (by simp)))
      simp [hne'] at hrest

theorem isFeed_eq_false [DistinctBreaks α] {u : α} (hu : ChunkUnit.isReturn u = true)
    (h : Lined breaks us (l :: ls) ([u] :: ends)) {vs : List α} (hrest : Lined breaks vs ls ends) :
    ∀ v ∈ vs.head?, ChunkUnit.isFeed v = false := by
  intro v hv
  refine Bool.eq_false_iff.2 fun hfeed => ?_
  have hvs : vs ≠ [] := by
    rintro rfl
    cases hv
  obtain ⟨m, ls, rfl⟩ := List.exists_cons_of_ne_nil (hrest.ne_nil_of_ne_nil hvs)
  cases m with
  | cons x m =>
    have hx : x = v := by
      rw [hrest.eq_flatten] at hv
      cases ends <;> simpa using hv
    have hbreak := LawfulChunkUnit.isLineBreak_of_isFeed v hfeed
    rw [← hx, hrest.isLineBreak_eq_false (x :: m) List.mem_cons_self x List.mem_cons_self] at hbreak
    cases hbreak
  | nil =>
    cases ends with
    | nil => exact hvs (by simpa using hrest.eq_flatten)
    | cons e ends =>
      have hend := hbreaks e (hrest.mem_breaks e List.mem_cons_self)
      rw [hrest.head?_eq (closing_lineEnd.ne_nil hend)] at hv
      cases hend with
      | @pair w _ _ hw =>
        obtain rfl : w = v := Option.some.inj hv
        rw [DistinctBreaks.isReturn_of_isFeed w hfeed] at hw
        cases hw
      | @single w =>
        obtain rfl : w = v := Option.some.inj hv
        exact h.not_parted 0 u w hu hfeed rfl rfl rfl

theorem exists_layout [DistinctBreaks α] (h : Lined breaks us ls ends) (hus : us ≠ []) :
    ∃ ps : List (Piece α), ps.map body = ls ∧
      Layout (Terminated ChunkUnit.isLineBreak LineEnd) (· = []) ps us := by
  induction ls generalizing us ends with
  | nil => exact absurd h.eq_flatten hus
  | cons l ls ih =>
    have hl := h.isLineBreak_eq_false l List.mem_cons_self
    cases ends with
    | nil =>
      obtain rfl : ls = [] := by
        have hlength := h.length_ends
        split at hlength
        case isTrue => cases hlength
        case isFalse => exact List.length_eq_zero_iff.1 hlength.symm
      obtain rfl : us = l := by simpa using h.eq_flatten
      have hlayout : Layout (Terminated ChunkUnit.isLineBreak LineEnd) (· = []) [⟨[], us, []⟩]
          ((⟨[], us, []⟩ : Piece α).units ++ []) := .cons (.last hl hus) (.nil rfl)
      rw [append_units, List.append_nil] at hlayout
      exact ⟨_, rfl, by simpa using hlayout⟩
    | cons e ends =>
      obtain ⟨vs, hvs⟩ : ∃ vs, (List.zipWith (· ++ ·) ls (ends ++ [[]])).flatten = vs := ⟨_, rfl⟩
      have hsplit : us = (⟨[], l, e⟩ : Piece α).units ++ vs := by
        rw [append_units, ← hvs]
        simpa using h.eq_flatten
      have hclose := hbreaks e (h.mem_breaks e List.mem_cons_self)
      rw [hsplit]
      by_cases hnil : vs = []
      · obtain rfl := h.eq_nil_of_flatten_eq_nil hbreaks (hvs.trans hnil)
        exact ⟨_, rfl, .cons (.mk hl (hnil ▸ hclose)) (.nil hnil)⟩
      · have htail := h.tail hnil (by rw [hsplit, append_units]; rfl) hvs.symm
        obtain ⟨ps, rfl, hlayout⟩ := ih htail hnil
        refine ⟨_, rfl, .cons (.mk hl ?_) hlayout⟩
        cases hclose with
        | pair hu hv => exact .pair hu hv
        | single hbreak => exact .single hbreak fun hu => h.isFeed_eq_false hbreaks hu htail

end

end Lined

/-- The lines of a sequence, with breaks between them, are the sequence, and only they are. -/
structure CutsLines [DecidableEq α] (d : Delimiters) (breaks : List (List α)) : Prop where
  nil : chunks .line d ([] : List α) = []
  exists_ends {us : List α} : us ≠ [] → ∃ ends, Lined breaks us (chunks .line d us) ends
  eq_chunks {us : List α} {ls ends : List (List α)} : us ≠ [] → Lined breaks us ls ends →
    ls = chunks .line d us

theorem cutsLines_of [DecidableEq α] [DistinctBreaks α] (d : Delimiters) {breaks : List (List α)}
    (hbreaks : ∀ e, e ∈ breaks ↔ Piece.LineEnd e []) : CutsLines d breaks where
  nil := rfl
  exists_ends _ := Lined.exists_of_layout (fun e => (hbreaks e).2) (Piece.reads_lines.layout _)
  eq_chunks := by
    intro us ls ends hus h
    obtain ⟨ps, rfl, hlayout⟩ := h.exists_layout (fun e => (hbreaks e).1) hus
    exact congrArg (List.map Piece.body) (Piece.reads_lines.eq_iff.2 hlayout).symm

theorem cutsLines (d : Delimiters) :
    CutsLines d [['\r'], ['\n'], ['\r', '\n'], ['\u2028'], ['\u2029']] ∧
      CutsLines d [[(13 : UInt8)], [10], [13, 10]] := by
  refine ⟨cutsLines_of d fun e => ?_, cutsLines_of d fun e => ?_⟩
  · simp only [Piece.lineEnd_nil_iff, ChunkUnit.isReturn, ChunkUnit.isFeed, ChunkUnit.isLineBreak]
    grind
  · simp only [Piece.lineEnd_nil_iff, ChunkUnit.isReturn, ChunkUnit.isFeed, ChunkUnit.isLineBreak]
    grind

end ScriptValue
