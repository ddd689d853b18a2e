import ScriptValue.Proofs.Chunk.Append
import ScriptValue.Proofs.Chunk.Delete
import Mathlib.Data.List.GetD

/-!
Deletion of chunks with one separator between them. A separator goes with the chunks, but the one
that closes the last chunk stays. The other chunks stay too; only a feed that comes to stand behind
a return opens no line any more, and an empty chunk at the end may be none.
-/

namespace ScriptValue

variable {α : Type}

namespace Piece.Joined

variable {b : Bool} {cs ds left : List (List α)}

theorem eq_append (h : Joined false cs ds left) : left = cs ++ ds := by
  cases h with
  | apart => rfl

theorem exists_append (h : Joined true cs ds left) : ∃ es, ds = [] :: es ∧ left = cs ++ es := by
  cases h with
  | joined _ es => exact ⟨es, rfl, rfl⟩

theorem length_le (h : Joined b cs ds left) : left.length ≤ cs.length + ds.length := by
  cases h with
  | apart => exact Nat.le_of_eq List.length_append
  | joined =>
    rw [List.length_append, List.length_cons]
    exact Nat.le_succ _

theorem readAlike {c close : List α}
    (h : Joined b cs (if c = [] ∧ close = [] then [] else [c]) left) :
    ReadAlike left (cs ++ [c]) ∧ left.length < cs.length + 1 + 1 := by
  cases b with
  | false =>
    rw [h.eq_append]
    split
    case isTrue hempty =>
      rw [hempty.1, List.append_nil]
      exact ⟨.right cs, Nat.lt_add_of_pos_right Nat.two_pos⟩
    case isFalse => exact ⟨.refl _, by simp⟩
  | true =>
    obtain ⟨es, hds, hleft⟩ := h.exists_append
    split at hds
    case isTrue => cases hds
    case isFalse =>
      cases hds
      rw [hleft, List.append_nil]
      exact ⟨.right cs, Nat.lt_add_of_pos_right Nat.two_pos⟩

theorem forall_getD_iff (h : Joined true cs ds left) :
    (∀ n, left.getD n [] = (cs ++ ds).getD n []) ↔ ∀ n, ds.getD n [] = [] := by
  obtain ⟨es, rfl, rfl⟩ := h.exists_append
  constructor
  · intro hread n
    induction n with
    | zero => rfl
    | succ n ih =>
      have hn := hread (cs.length + n)
      rwa [List.getD_append_right _ _ _ _ (Nat.le_add_right ..),
        List.getD_append_right _ _ _ _ (Nat.le_add_right ..), Nat.add_sub_cancel_left, ih] at hn
  · intro hempty n
    by_cases hn : n < cs.length
    · rw [List.getD_append _ _ _ _ hn, List.getD_append _ _ _ _ hn]
    · have hes := hempty (n - cs.length + 1)
      rw [List.getD_append_right _ _ _ _ (Nat.not_lt.1 hn),
        List.getD_append_right _ _ _ _ (Nat.not_lt.1 hn), hempty]
      exact hes

end Piece.Joined

variable [DecidableEq α] [ChunkUnit α]

/-- Whether a return before what a deletion takes and a feed behind it become one break. -/
def Segmentation.joinsBreak (s : Segmentation α) (spec : ChunkSpec) : Bool :=
  (s.removal? spec).any fun c => Piece.joins s.kind (s.units.take c.start) (s.units.drop c.stop)

namespace Piece

variable {kind : ChunkKind} {d : Delimiters} {us : List α} {xs ps zs ys : List (Piece α)}
  {p q : Piece α}

section ClosedBy

variable {Closes : List α → List α → Prop} (h : ClosedBy kind d Closes)

include h

theorem ClosedBy.before (hcut : cut kind d us = xs ++ p :: ps) :
    chunks kind d (xs.flatMap units) = xs.map body ∧
      ∀ u ∈ (xs.flatMap units).getLast?, separates kind d u = true := by
  have hlayout := hcut ▸ (reads_cut kind d).layout us
  constructor
  · rw [chunks, cut_eq_iff.2 (hlayout.take (stable_fits kind d) (bare_nil kind))]
  · cases List.eq_nil_or_concat' xs with
    | inl hnil =>
      rw [hnil]
      intro u hu
      cases hu
    | inr hconcat =>
      obtain ⟨ws, x, rfl⟩ := hconcat
      rw [List.append_assoc] at hlayout
      obtain ⟨_, -, hx⟩ := hlayout.drop
      obtain ⟨vs, rfl, hx, hps⟩ := hx.exists_cons
      obtain ⟨_, rfl, hp, -⟩ := Layout.exists_cons hps
      rw [h.fits_eq] at hx hp
      rw [List.flatMap_append, List.flatMap_singleton,
        List.getLast?_append_of_ne_nil _ (h.reads.ne_nil hx)]
      exact hx.sep_of_ne_nil h.closing (by simp [h.reads.ne_nil hp])

theorem ClosedBy.chunks_append_close {body : List α}
    (hbody : ∀ u ∈ body, separates kind d u = false)
    (hq : Terminated (separates kind d) Closes q []) :
    chunks kind d (body ++ q.close) = if body = [] ∧ q.close = [] then [] else [body] := by
  have hchunks {close : List α} (hp : Terminated (separates kind d) Closes ⟨[], body, close⟩ []) :
      chunks kind d (body ++ close) = [body] := by
    have hcut := h.reads.eq_of_layout (.cons hp (.nil rfl))
    rw [append_units, List.nil_append, List.append_nil] at hcut
    rw [chunks, hcut, List.map_singleton]
  cases hq with
  | mk _ hclose =>
    rw [if_neg fun hempty => h.closing.ne_nil hclose hempty.2]
    exact hchunks (.mk hbody hclose)
  | last =>
    split
    case isTrue hempty => rw [hempty.1, chunks, List.nil_append, h.reads.bare rfl, List.map_nil]
    case isFalse hne => exact hchunks (.last hbody fun hnil => hne ⟨hnil, rfl⟩)

theorem ClosedBy.isClosed_iff (hkind : kind.padsWhenExtended = true)
    (hcut : cut kind d us = zs ++ [q]) :
    (Segmentation.of kind d us).isClosed = true ↔ q.close ≠ [] := by
  obtain ⟨hunits, hq⟩ := h.reads.of_concat hcut
  have hlast : us.getLast? = q.units.getLast? := by
    rw [hunits, List.getLast?_append_of_ne_nil _ (h.reads.ne_nil hq)]
  rw [isClosed_eq hkind, hlast]
  cases hu : q.units.getLast? with
  | none => exact absurd (List.getLast?_eq_none_iff.1 hu) (h.reads.ne_nil hq)
  | some u =>
    rw [Option.any_some]
    cases hq.of_getLast? h.closing hu with
    | inl hclosed => exact iff_of_true hclosed.1 (h.closing.ne_nil hclosed.2.1)
    | inr hopen =>
      rw [hopen.1]
      exact iff_of_false Bool.false_ne_true (not_not.2 hopen.2)

end ClosedBy

section Delete

variable [DistinctBreaks α] {spec : ChunkSpec} {first last : Nat}
  (hb : spec.clampedBounds (Segmentation.of spec.kind d us).count = (first, last))
  (hkind : spec.kind.padsWhenExtended = true)

include hb hkind

theorem joined_delete_of_lt (hcut : cut spec.kind d us = xs ++ p :: ps)
    (hfirst : first = xs.length + 1) (hcut' : cut spec.kind d us = zs ++ q :: ys)
    (hlast : last = zs.length) (hle : first ≤ last) :
    Joined ((Segmentation.of spec.kind d us).joinsBreak spec) (xs.map body) ((q :: ys).map body)
      (chunks spec.kind d (delete d spec us)) := by
  obtain ⟨Closes, h⟩ := exists_closedBy (α := α) hkind d
  obtain ⟨_, hp, -, hlies⟩ := exists_lies hcut
  obtain ⟨rest, hq, hys, hlies'⟩ := exists_lies hcut'
  have hremoval : (Segmentation.of spec.kind d us).removal? spec =
      some ⟨((Segmentation.of spec.kind d us).span (xs.length + 1 : Nat)).start,
        ((Segmentation.of spec.kind d us).span (zs.length + 1 : Nat)).start⟩ := by
    have hcount : last < (Segmentation.of spec.kind d us).count := by
      rw [count_of_cut hcut']
      omega
    rw [Segmentation.removal?_of_lt hb hle hcount, hfirst, hlast]
  have hlayout : Layout (Fits spec.kind d) (Bare spec.kind) (q :: ys) (q.units ++ rest) :=
    .cons hq hys
  rw [h.fits_eq] at hp hq
  have hbefore : us.take ((Segmentation.of spec.kind d us).span (xs.length + 1 : Nat)).start =
      xs.flatMap units := by
    rw [hlies.take_start, hp.lead_eq_nil, List.append_nil]
  have hbehind : us.drop ((Segmentation.of spec.kind d us).span (zs.length + 1 : Nat)).start =
      q.units ++ rest := by
    rw [hlies'.drop_start, append_units, hq.lead_eq_nil, List.nil_append]
  have hjoins : (Segmentation.of spec.kind d us).joinsBreak spec =
      joins spec.kind (xs.flatMap units) (q.units ++ rest) := by
    rw [Segmentation.joinsBreak, hremoval, Option.any_some, ← hbefore, ← hbehind]
    rfl
  obtain ⟨hchunks, hsep⟩ := h.before hcut
  rw [hjoins, delete_of_removal? hremoval, hbefore, hbehind, ← hchunks, ← cut_eq_iff.2 hlayout]
  exact joined_chunks hkind hsep _

theorem joined_delete_of_le (hcut : cut spec.kind d us = xs ++ p :: ps)
    (hfirst : first = xs.length + 1 + 1) (hcut' : cut spec.kind d us = zs ++ [q])
    (hle : first ≤ zs.length + 1) (hlast : zs.length + 1 ≤ last) :
    ∃ b, Joined b (xs.map body) (if p.body = [] ∧ q.close = [] then [] else [p.body])
      (chunks spec.kind d (delete d spec us)) := by
  obtain ⟨Closes, h⟩ := exists_closedBy (α := α) hkind d
  obtain ⟨_, hp, -, hlies⟩ := exists_lies hcut
  obtain ⟨rest, hq, hnil, hlies'⟩ := exists_lies hcut'
  have hcount : (Segmentation.of spec.kind d us).count = zs.length + 1 := count_of_cut hcut'
  have hremoval := Segmentation.removal?_of_le hb (by omega) (by omega) (by omega)
  rw [hcount, hfirst, Nat.add_sub_cancel] at hremoval
  rw [h.bare_eq] at hnil
  cases hnil with
  | nil hrest =>
    rw [h.fits_eq] at hp hq
    have hdelete : delete d spec us = xs.flatMap units ++ (p.body ++ q.close) := by
      rw [delete_of_removal? hremoval, hlies.take_stop, hlies'.drop_stop, hp.lead_eq_nil, hrest,
        List.nil_append, List.append_nil, List.append_assoc]
    obtain ⟨hchunks, hsep⟩ := h.before hcut
    rw [hrest] at hq
    have hbody := (replaceable_terminated h.closing).sep_eq_false hp
    rw [hdelete, ← hchunks, ← h.chunks_append_close hbody hq]
    exact ⟨_, joined_chunks hkind hsep _⟩

theorem chunks_delete_all (hcut : cut spec.kind d us = p :: ps) (hfirst : first = 1)
    (hcut' : cut spec.kind d us = zs ++ [q]) (hlast : zs.length + 1 ≤ last) :
    chunks spec.kind d (delete d spec us) =
      if (Segmentation.of spec.kind d us).isClosed = true then [[]] else [] := by
  obtain ⟨Closes, h⟩ := exists_closedBy (α := α) hkind d
  have hfirstCut : cut spec.kind d us = [] ++ p :: ps := hcut
  obtain ⟨_, hp, -, hlies⟩ := exists_lies hfirstCut
  obtain ⟨rest, hq, hnil, hlies'⟩ := exists_lies hcut'
  have hcount : (Segmentation.of spec.kind d us).count = zs.length + 1 := count_of_cut hcut'
  have hremoval := Segmentation.removal?_all hb hfirst (by omega) (by omega)
  rw [hcount] at hremoval
  rw [h.bare_eq] at hnil
  cases hnil with
  | nil hrest =>
    rw [h.fits_eq] at hp hq
    have htake : us.take ((Segmentation.of spec.kind d us).span 1).start = [] :=
      hlies.take_start.trans hp.lead_eq_nil
    have hdelete : delete d spec us = [] ++ q.close := by
      rw [delete_of_removal? hremoval, htake, hlies'.drop_stop, hrest, List.append_nil]
    rw [hrest] at hq
    have hclosed := h.isClosed_iff hkind hcut'
    rw [hdelete, h.chunks_append_close (List.forall_mem_nil _) hq]
    by_cases hclose : q.close = []
    · rw [if_pos ⟨rfl, hclose⟩, if_neg fun hc => hclosed.1 hc hclose]
    · rw [if_neg fun hempty => hclose hempty.2, if_pos (hclosed.2 hclose)]

end Delete

section Chunks

variable [DistinctBreaks α] {spec : ChunkSpec} {first last : Nat}
  (hb : spec.clampedBounds (Segmentation.of spec.kind d us).count = (first, last))
  (hkind : spec.kind.padsWhenExtended = true)

include hb hkind

theorem joined_chunks_delete (hfirst : 1 ≤ first)
    (hlast : last < (Segmentation.of spec.kind d us).count) (hle : first ≤ last) :
    Joined ((Segmentation.of spec.kind d us).joinsBreak spec)
      ((chunks spec.kind d us).take (first - 1)) ((chunks spec.kind d us).drop last)
      (chunks spec.kind d (delete d spec us)) := by
  rw [length_cut] at hlast
  have hi : first - 1 < (cut spec.kind d us).length := by omega
  have hfirst' : first = ((cut spec.kind d us).take (first - 1)).length + 1 := by
    rw [List.length_take_of_le (Nat.le_of_lt hi)]
    omega
  have hjoined := joined_delete_of_lt hb hkind (cut_eq_append hi) hfirst' (cut_eq_append hlast)
    (List.length_take_of_le (Nat.le_of_lt hlast)).symm hle
  rwa [← List.drop_eq_getElem_cons hlast, List.map_take, List.map_drop] at hjoined

theorem readAlike_delete_of_le (hfirst : 1 < first)
    (hcount : first ≤ (Segmentation.of spec.kind d us).count)
    (hlast : (Segmentation.of spec.kind d us).count ≤ last) :
    ReadAlike (chunks spec.kind d (delete d spec us)) ((chunks spec.kind d us).take (first - 1)) ∧
      (chunks spec.kind d (delete d spec us)).length < first := by
  obtain ⟨zs, q, hcut', hlength⟩ := exists_cut_concat (Nat.le_trans (Nat.le_of_lt hfirst) hcount)
  obtain ⟨n, rfl⟩ : ∃ n, first = n + 1 + 1 := ⟨first - 2, by omega⟩
  have hi : n < (cut spec.kind d us).length := by rw [← length_cut]; omega
  have hn := List.length_take_of_le (Nat.le_of_lt hi)
  obtain ⟨b, hjoined⟩ := joined_delete_of_le hb hkind (cut_eq_append hi) (by rw [hn]) hcut'
    (by omega) (by omega)
  have htake : (chunks spec.kind d us).take (n + 1) =
      ((cut spec.kind d us).take n).map body ++ [(cut spec.kind d us)[n].body] := by
    rw [chunks, ← List.map_take, ← List.take_append_getElem hi, List.map_append, List.map_singleton]
  have hlost := hjoined.readAlike
  rw [← htake, List.length_map, hn] at hlost
  exact hlost

theorem chunks_delete_of_le (hfirst : first = 1)
    (hcount : 1 ≤ (Segmentation.of spec.kind d us).count)
    (hlast : (Segmentation.of spec.kind d us).count ≤ last) :
    chunks spec.kind d (delete d spec us) =
      if (Segmentation.of spec.kind d us).isClosed = true then [[]] else [] := by
  obtain ⟨zs, q, hcut', hlength⟩ := exists_cut_concat hcount
  have hi : 0 < (cut spec.kind d us).length := by rw [← length_cut]; omega
  exact chunks_delete_all hb hkind (cut_eq_append hi) hfirst hcut' (by omega)

end Chunks

end Piece

namespace Segmentation

open Piece

theorem forall_get_lt_iff (kind : ChunkKind) (d : Delimiters) (us : List α) (last : Nat) :
    (∀ n : Int, last < n → (Segmentation.of kind d us).get n = []) ↔
      ∀ n, ((chunks kind d us).drop last).getD n [] = [] := by
  have hget (n : Nat) : ((chunks kind d us).drop last).getD n [] =
      (Segmentation.of kind d us).get (last + n + 1 : Nat) := by
    rw [get_eq_getD (by omega), List.getD_eq_getElem?_getD, List.getD_eq_getElem?_getD,
      List.getElem?_drop]
    rfl
  constructor
  · intro h n
    rw [hget]
    exact h _ (by omega)
  · intro h n hn
    obtain ⟨m, rfl⟩ : ∃ m : Nat, n = (last + m + 1 : Nat) := ⟨(n - last - 1).toNat, by omega⟩
    rw [← hget, h]

section Left

variable [DistinctBreaks α] {spec : ChunkSpec} {d : Delimiters} {us : List α} {first last : Nat}
  (hb : spec.clampedBounds (Segmentation.of spec.kind d us).count = (first, last))
  (hkind : spec.kind.padsWhenExtended = true) (hfirst : 1 ≤ first)
  (hcount : first ≤ (Segmentation.of spec.kind d us).count) (hle : first ≤ last)

include hb hkind hfirst hcount hle

theorem count_delete_lt_iff :
    (Segmentation.of spec.kind d (ScriptValue.delete d spec us)).count <
        (Segmentation.of spec.kind d us).count ↔
      ¬ ((Segmentation.of spec.kind d us).count = 1 ∧
        (Segmentation.of spec.kind d us).isClosed = true) := by
  rw [length_chunks spec.kind d (ScriptValue.delete d spec us)]
  by_cases hlast : last < (Segmentation.of spec.kind d us).count
  · have hlength := (joined_chunks_delete hb hkind hfirst hlast hle).length_le
    have hus := length_chunks spec.kind d us
    rw [List.length_take, List.length_drop] at hlength
    exact iff_of_true (by omega) (by omega)
  · by_cases hone : first = 1
    · rw [chunks_delete_of_le hb hkind hone (by omega) (by omega)]
      by_cases hclosed : (Segmentation.of spec.kind d us).isClosed = true
      · rw [if_pos hclosed, List.length_singleton]
        simp only [hclosed, and_true]
        omega
      · rw [if_neg hclosed, List.length_nil]
        exact iff_of_true (by omega) fun h => hclosed h.2
    · have hlength := (readAlike_delete_of_le hb hkind (by omega) hcount (by omega)).2
      exact iff_of_true (by omega) (by omega)

theorem readAlike_delete (h : (Segmentation.of spec.kind d us).joinsBreak spec = false ∨
    (Segmentation.of spec.kind d us).count ≤ last) :
    ReadAlike (chunks spec.kind d (ScriptValue.delete d spec us))
      ((chunks spec.kind d us).take (first - 1) ++ (chunks spec.kind d us).drop last) := by
  by_cases hlast : last < (Segmentation.of spec.kind d us).count
  · have hjoined := joined_chunks_delete hb hkind hfirst hlast hle
    rw [h.resolve_right (by omega)] at hjoined
    rw [hjoined.eq_append]
    exact .refl _
  · rw [List.drop_eq_nil_of_le (by rw [← length_chunks]; omega), List.append_nil]
    by_cases hone : first = 1
    · rw [chunks_delete_of_le hb hkind hone (by omega) (by omega), hone, List.take_zero]
      split
      case isTrue => exact .left []
      case isFalse => exact .refl []
    · exact (readAlike_delete_of_le hb hkind (by omega) hcount (by omega)).1

theorem get_delete_iff :
    (∀ m : Int, 1 ≤ m → (Segmentation.of spec.kind d (ScriptValue.delete d spec us)).get m =
        if m < first then (Segmentation.of spec.kind d us).get m
        else (Segmentation.of spec.kind d us).get
          (m + (min last (Segmentation.of spec.kind d us).count - first + 1 : Nat))) ↔
      (Segmentation.of spec.kind d us).joinsBreak spec = false ∨
        ∀ n : Int, last < n → (Segmentation.of spec.kind d us).get n = [] := by
  rw [forall_get_iff hfirst hcount hle, forall_get_lt_iff]
  by_cases hread : (Segmentation.of spec.kind d us).joinsBreak spec = false ∨
      (Segmentation.of spec.kind d us).count ≤ last
  · refine iff_of_true (readAlike_delete hb hkind hfirst hcount hle hread).getD_eq ?_
    refine hread.imp_right fun hlast n => ?_
    rw [List.drop_eq_nil_of_le (by rwa [← length_chunks]), List.getD_nil]
  · rw [not_or, Nat.not_le, Bool.not_eq_false] at hread
    have hjoined := joined_chunks_delete hb hkind hfirst hread.2 hle
    rw [hread.1] at hjoined
    rw [hjoined.forall_getD_iff, hread.1, or_iff_right (by decide)]

end Left

end Segmentation

end ScriptValue
