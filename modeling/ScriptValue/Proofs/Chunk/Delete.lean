import ScriptValue.Proofs.Chunk.Removal

/-!
Deletion of chunks. Of the sequence a deletion leaves what stands before and behind the chunks that
are meant, and of the list of chunks all others; but an empty chunk may be lost or come to be at the
very end, where it reads as a chunk that is not there.
-/

namespace ScriptValue.Segmentation

variable {α : Type} {s : Segmentation α} {spec : ChunkSpec} {first last : Nat}
  (hb : spec.clampedBounds s.count = (first, last))

include hb

theorem removal?_eq_none (h : s.count < first ∨ last < first) : s.removal? spec = none := by
  simp [removal?, hb, h]

theorem removal?_of_lt (hle : first ≤ last) (hlast : last < s.count) :
    s.removal? spec = some ⟨(s.span first).start, (s.span (last + 1 : Nat)).start⟩ := by
  have hsome : ¬ (s.count < first ∨ last < first) := by omega
  simp [removal?, hb, hsome, hlast, start_eq_span]

theorem removal?_of_le (hfirst : 1 < first) (hcount : first ≤ s.count) (hlast : s.count ≤ last) :
    s.removal? spec = some ⟨(s.span (first - 1 : Nat)).stop, (s.span s.count).stop⟩ := by
  have hsome : ¬ (s.count < first ∨ last < first) := by omega
  simp [removal?, hb, hsome, Nat.not_lt.2 hlast, hfirst]

theorem removal?_all (hfirst : first = 1) (hcount : 1 ≤ s.count) (hlast : s.count ≤ last) :
    s.removal? spec = some ⟨(s.span 1).start, (s.span s.count).stop⟩ := by
  subst hfirst
  have hsome : ¬ (s.count < 1 ∨ last < 1) := by omega
  simp only [removal?, hb, if_neg hsome, if_neg (Nat.not_lt.2 hlast), if_neg (Nat.lt_irrefl 1)]
  rfl

end ScriptValue.Segmentation

namespace ScriptValue.Piece

variable {α : Type}

/-- The same chunks but for an empty one at the end of either; no number tells them apart. -/
inductive ReadAlike : List (List α) → List (List α) → Prop
  | refl (cs) : ReadAlike cs cs
  | left (cs) : ReadAlike (cs ++ [[]]) cs
  | right (cs) : ReadAlike cs (cs ++ [[]])

theorem getD_append_singleton_nil (cs : List (List α)) (n : Nat) :
    (cs ++ [[]]).getD n [] = cs.getD n [] := by
  rw [List.getD_eq_getElem?_getD, List.getD_eq_getElem?_getD, List.getElem?_append]
  split
  case isTrue => rfl
  case isFalse h =>
    rw [List.getElem?_eq_none (Nat.not_lt.1 h)]
    cases n - cs.length <;> rfl

theorem ReadAlike.getD_eq {cs cs' : List (List α)} (h : ReadAlike cs cs') (n : Nat) :
    cs.getD n [] = cs'.getD n [] := by
  cases h with
  | refl => rfl
  | left => exact getD_append_singleton_nil _ n
  | right => exact (getD_append_singleton_nil _ n).symm

theorem ReadAlike.eq_of_forall_ne_nil {cs cs' : List (List α)} (h : ReadAlike cs cs')
    (hcs : ∀ c ∈ cs, c ≠ []) (hcs' : ∀ c ∈ cs', c ≠ []) : cs = cs' := by
  cases h with
  | refl => rfl
  | left => exact absurd rfl (hcs [] (by simp))
  | right => exact absurd rfl (hcs' [] (by simp))

theorem getD_take_append_drop {cs : List (List α)} {first last : Nat} (n : Nat)
    (hfirst : 1 ≤ first) (hcount : first ≤ cs.length) (hle : first ≤ last) :
    (cs.take (first - 1) ++ cs.drop last).getD n [] =
      if n + 1 < first then cs.getD n []
      else cs.getD (n + (min last cs.length - first + 1)) [] := by
  simp only [List.getD_eq_getElem?_getD]
  have hlength : (cs.take (first - 1)).length = first - 1 := List.length_take_of_le (by omega)
  split
  case isTrue h =>
    rw [List.getElem?_append_left (by omega), List.getElem?_take_of_lt (by omega)]
  case isFalse h =>
    rw [List.getElem?_append_right (by omega), List.getElem?_drop, hlength]
    by_cases hlast : last ≤ cs.length
    · congr 2
      omega
    · rw [List.getElem?_eq_none (by omega), List.getElem?_eq_none (by omega)]

structure Lies (c : Span) (us before : List α) (p : Piece α) (rest : List α) : Prop where
  take_start : us.take c.start = before ++ p.lead
  take_stop : us.take c.stop = before ++ (p.lead ++ p.body)
  drop_start : us.drop c.start = p.body ++ (p.close ++ rest)
  drop_stop : us.drop c.stop = p.close ++ rest

theorem lies (before : List α) (p : Piece α) (rest : List α) :
    Lies ⟨before.length + p.lead.length, before.length + p.lead.length + p.body.length⟩
      (before ++ (p.units ++ rest)) before p rest := by
  have hstart : before ++ (p.units ++ rest) =
      (before ++ p.lead) ++ (p.body ++ (p.close ++ rest)) := by
    rw [append_units, List.append_assoc]
  have hstop : before ++ (p.units ++ rest) =
      (before ++ (p.lead ++ p.body)) ++ (p.close ++ rest) := by
    rw [append_units, List.append_assoc, List.append_assoc]
  refine ⟨?_, ?_, ?_, ?_⟩
  · rw [hstart]
    exact List.take_left' List.length_append
  · rw [hstop]
    exact List.take_left' (by simp [Nat.add_assoc])
  · rw [hstart]
    exact List.drop_left' List.length_append
  · rw [hstop]
    exact List.drop_left' (by simp [Nat.add_assoc])

section Delete

variable [DecidableEq α] [ChunkUnit α] {spec : ChunkSpec} {d : Delimiters} {us : List α}
  {xs ps zs ys : List (Piece α)} {p q : Piece α} {first last : Nat}

theorem exists_lies {kind : ChunkKind} (hcut : cut kind d us = xs ++ p :: ps) :
    ∃ rest, Fits kind d p rest ∧ Layout (Fits kind d) (Bare kind) ps rest ∧
      Lies ((Segmentation.of kind d us).span (xs.length + 1 : Nat)) us (xs.flatMap units) p
        rest := by
  obtain ⟨vs, hvs, hlayout⟩ := (hcut ▸ (reads_cut kind d).layout us).drop
  obtain ⟨rest, rfl, hp, hps⟩ := hlayout.exists_cons
  refine ⟨rest, hp, hps, ?_⟩
  rw [span_of_cut hcut, hvs]
  exact lies _ p rest

theorem delete_of_removal? {c : Span}
    (h : (Segmentation.of spec.kind d us).removal? spec = some c) :
    delete d spec us = us.take c.start ++ us.drop c.stop := by
  rw [delete, Segmentation.delete, h]
  change us.take c.start ++ [] ++ us.drop c.stop = _
  rw [List.append_nil]

theorem count_of_cut {kind : ChunkKind} (hcut : cut kind d us = zs ++ q :: ys) :
    (Segmentation.of kind d us).count = zs.length + (ys.length + 1) := by
  rw [length_cut, hcut, List.length_append, List.length_cons]

theorem exists_cut_concat {kind : ChunkKind} (hcount : 1 ≤ (Segmentation.of kind d us).count) :
    ∃ zs q, cut kind d us = zs ++ [q] ∧ (Segmentation.of kind d us).count = zs.length + 1 := by
  cases List.eq_nil_or_concat' (cut kind d us) with
  | inl hnil =>
    rw [length_cut, hnil] at hcount
    cases hcount
  | inr hconcat =>
    obtain ⟨zs, q, hcut⟩ := hconcat
    exact ⟨zs, q, hcut, count_of_cut hcut⟩

variable (hb : spec.clampedBounds (Segmentation.of spec.kind d us).count = (first, last))

include hb

theorem delete_eq_self (h : (Segmentation.of spec.kind d us).count < first ∨ last < first) :
    delete d spec us = us := by
  rw [delete, Segmentation.delete, Segmentation.removal?_eq_none hb h]
  rfl

variable (hkind : spec.kind ≠ .line)

include hkind

theorem cut_delete_of_lt (hcut : cut spec.kind d us = xs ++ p :: ps)
    (hfirst : first = xs.length + 1) (hcut' : cut spec.kind d us = zs ++ q :: ys)
    (hlast : last = zs.length) (hle : first ≤ last) :
    cut spec.kind d (delete d spec us) = xs ++ ⟨p.lead, q.body, q.close⟩ :: ys := by
  obtain ⟨_, hp, -, hlies⟩ := exists_lies hcut
  obtain ⟨rest, hq, hys, hlies'⟩ := exists_lies hcut'
  have hr := removable_fits (α := α) d hkind
  have hcount : last < (Segmentation.of spec.kind d us).count := by
    rw [count_of_cut hcut']
    omega
  have hdelete : delete d spec us = xs.flatMap units ++
      ((⟨p.lead, q.body, q.close⟩ : Piece α).units ++ rest) := by
    rw [delete_of_removal? (Segmentation.removal?_of_lt hb hle hcount), hfirst, hlast,
      hlies.take_start, hlies'.drop_start, append_units, List.append_assoc]
  have hlayout := hcut ▸ (reads_cut spec.kind d).layout us
  rw [hdelete, cut_eq_iff]
  exact hlayout.resume hr (.cons (hr.moved hp hq) hys) rfl

theorem cut_delete_of_le (hcut : cut spec.kind d us = xs ++ p :: ps)
    (hfirst : first = xs.length + 1 + 1) (hcut' : cut spec.kind d us = zs ++ [q])
    (hle : first ≤ zs.length + 1) (hlast : zs.length + 1 ≤ last) :
    cut spec.kind d (delete d spec us) =
      if p.body = [] ∧ q.close = [] then xs else xs ++ [⟨p.lead, p.body, q.close⟩] := by
  obtain ⟨_, hp, -, hlies⟩ := exists_lies hcut
  obtain ⟨rest, hq, hnil, hlies'⟩ := exists_lies hcut'
  have hr := removable_fits (α := α) d hkind
  have hcount : (Segmentation.of spec.kind d us).count = zs.length + 1 := count_of_cut hcut'
  have hremoval := Segmentation.removal?_of_le hb (by omega) (by omega) (by omega)
  have hdelete : delete d spec us = xs.flatMap units ++
      ((⟨p.lead, p.body, q.close⟩ : Piece α).units ++ rest) := by
    rw [delete_of_removal? hremoval, hcount, hfirst, Nat.add_sub_cancel, hlies.take_stop,
      hlies'.drop_stop, append_units]
    simp only [List.append_assoc]
  have hbare : Bare spec.kind rest := by
    cases hnil with
    | nil hbare => exact hbare
  have hlayout := hcut ▸ (reads_cut spec.kind d).layout us
  rw [hdelete, cut_eq_iff]
  split
  case isTrue hempty =>
    -- an empty chunk that nothing closes is no chunk any more
    have hs := stable_fits (α := α) spec.kind d
    rw [units, hs.lead_eq_nil hp hempty.1, hempty.1, hempty.2, hr.eq_nil_of_bare hp hempty.1 hbare]
    simpa using hlayout.take hs (bare_nil spec.kind)
  case isFalse hne =>
    have hne : p.body ≠ [] ∨ q.close ≠ [] := Decidable.not_and_iff_or_not.1 hne
    exact hlayout.resume hr (.cons (hr.closed hp hq hbare hne) (.nil hbare)) rfl

theorem cut_delete_all (hcut : cut spec.kind d us = p :: ps) (hfirst : first = 1)
    (hcut' : cut spec.kind d us = zs ++ [q]) (hlast : zs.length + 1 ≤ last) :
    cut spec.kind d (delete d spec us) = [] ∨
      cut spec.kind d (delete d spec us) = [⟨p.lead, [], q.close⟩] := by
  have hfirstCut : cut spec.kind d us = [] ++ p :: ps := hcut
  obtain ⟨_, hp, -, hlies⟩ := exists_lies hfirstCut
  obtain ⟨rest, hq, hnil, hlies'⟩ := exists_lies hcut'
  have hr := removable_fits (α := α) d hkind
  have hcount : (Segmentation.of spec.kind d us).count = zs.length + 1 := count_of_cut hcut'
  have hremoval := Segmentation.removal?_all hb hfirst (by omega) (by omega)
  have hdelete : delete d spec us = p.lead ++ (q.close ++ rest) := by
    rw [delete_of_removal? hremoval, hcount, hlies'.drop_stop]
    exact congrArg (· ++ (q.close ++ rest)) hlies.take_start
  have hbare : Bare spec.kind rest := by
    cases hnil with
    | nil hbare => exact hbare
  rw [hdelete]
  refine (hr.emptied hp hq hbare).imp (fun hempty => cut_eq_iff.2 (.nil hempty)) fun hfits => ?_
  have hlayout := Layout.cons hfits (.nil hbare)
  rw [append_units, List.nil_append] at hlayout
  exact cut_eq_iff.2 hlayout

end Delete

section Chunks

variable [DecidableEq α] [ChunkUnit α] {kind : ChunkKind} {d : Delimiters} {us : List α}

theorem ne_nil_of_mem_chunks (hkind : kind.padsWhenExtended = false) {c : List α}
    (hc : c ∈ chunks kind d us) : c ≠ [] := by
  obtain ⟨p, hp, rfl⟩ := List.mem_map.1 hc
  obtain ⟨vs, hfits⟩ := ((reads_cut kind d).layout us).exists_of_mem hp
  exact hfits.body_ne_nil hkind

theorem cut_eq_append {i : Nat} (h : i < (cut kind d us).length) :
    cut kind d us =
      (cut kind d us).take i ++ (cut kind d us)[i] :: (cut kind d us).drop (i + 1) := by
  rw [← List.drop_eq_getElem_cons h, List.take_append_drop]

variable {spec : ChunkSpec} {first last : Nat}

section Delete

variable (hb : spec.clampedBounds (Segmentation.of spec.kind d us).count = (first, last))
  (hkind : spec.kind ≠ .line)

include hb hkind

theorem chunks_delete_of_lt (hlast : last < (Segmentation.of spec.kind d us).count)
    (hfirst : 1 ≤ first) (hle : first ≤ last) :
    chunks spec.kind d (delete d spec us) =
      (chunks spec.kind d us).take (first - 1) ++ (chunks spec.kind d us).drop last := by
  rw [length_cut] at hlast
  have hi : first - 1 < (cut spec.kind d us).length := by omega
  have hfirst' : first = ((cut spec.kind d us).take (first - 1)).length + 1 := by
    rw [List.length_take_of_le (Nat.le_of_lt hi)]
    omega
  have hcut := cut_delete_of_lt hb hkind (cut_eq_append hi) hfirst' (cut_eq_append hlast)
    (List.length_take_of_le (Nat.le_of_lt hlast)).symm hle
  rw [chunks, hcut, chunks, ← List.map_take, ← List.map_drop, List.drop_eq_getElem_cons hlast,
    List.map_append, List.map_cons, List.map_cons]

theorem readAlike_chunks_delete_of_le (hlast : (Segmentation.of spec.kind d us).count ≤ last)
    (hfirst : 1 ≤ first) (hcount : first ≤ (Segmentation.of spec.kind d us).count) :
    ReadAlike (chunks spec.kind d (delete d spec us))
      ((chunks spec.kind d us).take (first - 1)) := by
  obtain ⟨zs, q, hcut', hlength⟩ := exists_cut_concat (Nat.le_trans hfirst hcount)
  cases hn : first - 1 with
  | zero =>
    have hi : 0 < (cut spec.kind d us).length := by rw [← length_cut]; omega
    rw [List.take_zero]
    cases cut_delete_all hb hkind (cut_eq_append hi) (by omega) hcut' (by omega) with
    | inl hcut =>
      rw [chunks, hcut]
      exact .refl []
    | inr hcut =>
      rw [chunks, hcut]
      exact .left []
  | succ n =>
    have hi : n < (cut spec.kind d us).length := by rw [← length_cut]; omega
    have hcut := cut_delete_of_le hb hkind (cut_eq_append hi)
      (by rw [List.length_take_of_le (Nat.le_of_lt hi)]; omega) hcut' (by omega) (by omega)
    rw [chunks, hcut, chunks, ← List.map_take, ← List.take_append_getElem hi, List.map_append,
      List.map_singleton]
    split
    case isTrue hempty =>
      rw [hempty.1]
      exact .right _
    case isFalse =>
      rw [List.map_append, List.map_singleton]
      exact .refl _

theorem readAlike_chunks_delete (hcount : first ≤ (Segmentation.of spec.kind d us).count)
    (hle : first ≤ last) :
    ReadAlike (chunks spec.kind d (delete d spec us))
      ((chunks spec.kind d us).take (first - 1) ++ (chunks spec.kind d us).drop last) := by
  obtain ⟨_, _, hb', hpos⟩ := spec.exists_clampedBounds (Segmentation.of spec.kind d us).count
  obtain ⟨rfl, -⟩ := Prod.mk.inj (hb.symm.trans hb')
  by_cases hlast : last < (Segmentation.of spec.kind d us).count
  · rw [chunks_delete_of_lt hb hkind hlast hpos hle]
    exact .refl _
  · have hlast := Nat.not_lt.1 hlast
    rw [List.drop_eq_nil_of_le (by rwa [← length_chunks]), List.append_nil]
    exact readAlike_chunks_delete_of_le hb hkind hlast hpos hcount

end Delete

end Chunks

end ScriptValue.Piece

namespace ScriptValue.Segmentation

open Piece

variable {α : Type} [DecidableEq α] [ChunkUnit α]

theorem forall_get_iff {kind : ChunkKind} {d : Delimiters} {us left : List α} {first last : Nat}
    (hfirst : 1 ≤ first) (hcount : first ≤ (Segmentation.of kind d us).count)
    (hle : first ≤ last) :
    (∀ m : Int, 1 ≤ m → (Segmentation.of kind d left).get m =
        if m < first then (Segmentation.of kind d us).get m
        else (Segmentation.of kind d us).get
          (m + (min last (Segmentation.of kind d us).count - first + 1 : Nat))) ↔
      ∀ n, (chunks kind d left).getD n [] =
        ((chunks kind d us).take (first - 1) ++ (chunks kind d us).drop last).getD n [] := by
  rw [length_chunks] at hcount
  have hread {m : Int} (hm : 1 ≤ m) :
      (if m < first then (Segmentation.of kind d us).get m
        else (Segmentation.of kind d us).get
          (m + (min last (Segmentation.of kind d us).count - first + 1 : Nat))) =
        ((chunks kind d us).take (first - 1) ++ (chunks kind d us).drop last).getD
          (m.toNat - 1) [] := by
    rw [get_eq_getD hm, get_eq_getD (by omega), getD_take_append_drop _ hfirst hcount hle,
      length_chunks]
    have hindex : m.toNat - 1 + 1 < first ↔ m < first := by omega
    have hlater : (m + (min last (chunks kind d us).length - first + 1 : Nat)).toNat - 1 =
        m.toNat - 1 + (min last (chunks kind d us).length - first + 1) := by omega
    simp only [hindex, hlater]
  constructor
  · intro h n
    have hn := h (n + 1 : Nat) (by omega)
    rwa [hread (by omega), get_eq_getD (by omega), Int.toNat_natCast, Nat.add_sub_cancel] at hn
  · intro h m hm
    rw [hread hm, get_eq_getD hm, h]

/--
A deletion takes the chunks meant out of the list of chunks, as its chunks are read by number; where
no chunk can be empty, the list itself is the old one without them. Without chunks that are meant
the sequence stays as it is.
-/
theorem get_delete (d : Delimiters) (spec : ChunkSpec) (us : List α) (hkind : spec.kind ≠ .line) :
    let count := (Segmentation.of spec.kind d us).count
    let first := (spec.clampedBounds count).1
    let last := (spec.clampedBounds count).2
    (count < first ∨ last < first → ScriptValue.delete d spec us = us) ∧
      (first ≤ count → first ≤ last →
        (∀ m : Int, 1 ≤ m →
          (Segmentation.of spec.kind d (ScriptValue.delete d spec us)).get m =
            if m < first then (Segmentation.of spec.kind d us).get m
            else (Segmentation.of spec.kind d us).get (m + (min last count - first + 1 : Nat))) ∧
        (spec.kind ∈ [.character, .word, .sentence, .paragraph] →
          chunks spec.kind d (ScriptValue.delete d spec us) =
            (chunks spec.kind d us).take (first - 1) ++ (chunks spec.kind d us).drop last)) := by
  intro count first last
  have hb : spec.clampedBounds count = (first, last) := rfl
  have hfirst : 1 ≤ first := Nat.le_max_right _ 1
  refine ⟨delete_eq_self hb, fun hcount hle => ?_⟩
  have halike := readAlike_chunks_delete hb hkind hcount hle
  constructor
  · exact (forall_get_iff hfirst hcount hle).2 halike.getD_eq
  · intro hmem
    have hpads : spec.kind.padsWhenExtended = false := by
      revert hmem
      cases spec.kind <;> decide
    refine halike.eq_of_forall_ne_nil (fun c => ne_nil_of_mem_chunks hpads) fun c hc => ?_
    rw [List.mem_append] at hc
    exact ne_nil_of_mem_chunks hpads (hc.elim List.mem_of_mem_take List.mem_of_mem_drop)

theorem get_delete_sentences :
    let spec : ChunkSpec := ⟨.sentence, .nth 2, some (.nth 3)⟩
    let us := "Go. Or wait! Is it... ?  Now".toList
    let left := ScriptValue.delete .standard spec us
    spec.kind ≠ .line ∧ 2 ≤ (Segmentation.of .sentence .standard us).count ∧ 2 ≤ 3 ∧
      (Segmentation.of .sentence .standard left).get 1 = "Go.".toList ∧
      (Segmentation.of .sentence .standard left).get 2 = ['?'] ∧
      chunks .sentence .standard left = ["Go.".toList, ['?'], "Now".toList] ∧
      ScriptValue.delete .standard ⟨.sentence, .nth 6, none⟩ us = us := by
  intro spec us left
  have hkind : spec.kind ≠ .line := by decide
  have hcount : 2 ≤ (Segmentation.of .sentence .standard us).count := by decide
  obtain ⟨hget, hchunks⟩ := (get_delete .standard spec us hkind).2 hcount (by decide)
  obtain ⟨hnone, -⟩ := get_delete .standard ⟨.sentence, .nth 6, none⟩ us (by decide)
  refine ⟨hkind, hcount, by decide, (hget 1 (by decide)).trans ?_, (hget 2 (by decide)).trans ?_,
    (hchunks (by decide)).trans ?_, hnone (.inl ?_)⟩
  · decide
  · decide
  · decide
  · decide

end ScriptValue.Segmentation
