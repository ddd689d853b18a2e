import ScriptValue.Date.Reader
import ScriptValue.Proofs.Chunk.Rejoin
import ScriptValue.Proofs.Coercion.Reading
import Mathlib.Data.List.Forall2

namespace ScriptValue

section Split

variable {α : Type} [DecidableEq α] {us : List α}

def withoutClose (u : α) (us : List α) : List α :=
  if us.getLast? = some u then us.dropLast else us

theorem count_withoutClose (u : α) (us : List α) :
    (withoutClose u us).count u = us.count u - if us.getLast? = some u then 1 else 0 := by
  unfold withoutClose
  split
  case isTrue h =>
    obtain ⟨vs, rfl⟩ := List.getLast?_eq_some_iff.1 h
    simp
  case isFalse => rfl

theorem length_splitOn (u : α) (us : List α) : (us.splitOn u).length = us.count u + 1 := by
  induction us with
  | nil => simp
  | cons v us ih =>
    by_cases h : v = u <;> simp [List.splitOn_cons_eq_if_modifyHead, h, ih]

theorem rejoined_splitOn (u : α) (hne : us ≠ []) :
    rejoined (us.splitOn u) = (withoutClose u us).splitOn u := by
  by_cases hlast : us.getLast? = some u
  · obtain ⟨vs, rfl⟩ := List.getLast?_eq_some_iff.1 hlast
    rw [withoutClose, if_pos hlast, List.splitOn_append_cons_self, List.splitOn_nil,
      rejoined_concat_nil, List.dropLast_concat]
  · rw [withoutClose, if_neg hlast, rejoined_eq_self_iff]
    intro hempty
    obtain ⟨init, hsplit⟩ := List.getLast?_eq_some_iff.1 hempty
    have hus : us = [u].intercalate (init ++ [[]]) := by rw [← hsplit, List.intercalate_splitOn]
    cases init with
    | nil => exact hne (by simpa using hus)
    | cons c cs =>
      rw [intercalate_concat [u] [] (List.cons_ne_nil c cs)] at hus
      exact hlast (by simp [hus])

end Split

namespace Piece

variable {α : Type} [DecidableEq α] {u : α}

theorem map_body_delimited (u : α) (us : List α) :
    (delimited u us).map body = rejoined (us.splitOn u) := by
  induction us with
  | nil => simp [delimited, rejoined]
  | cons v us ih =>
    obtain ⟨c, cs, hsplit⟩ := List.exists_cons_of_ne_nil (List.splitOn_ne_nil u us)
    rw [hsplit] at ih
    by_cases hv : v = u
    · rw [delimited, if_pos hv, List.splitOn_cons_eq_if_modifyHead, if_pos (by simpa using hv),
        hsplit, rejoined_cons_cons, List.map_cons, ih]
    · rw [delimited, if_neg hv, List.splitOn_cons_eq_if_modifyHead, if_neg (by simpa using hv),
        hsplit, List.modifyHead_cons]
      cases cs with
      | nil =>
        rw [rejoined_singleton] at ih
        rw [rejoined_singleton, if_neg (List.cons_ne_nil v c)]
        split at ih
        case isTrue hc => rw [List.map_eq_nil_iff.1 ih, hc, extend, List.map_singleton]
        case isFalse =>
          obtain ⟨p, ps, hscan, rfl, hps⟩ := List.map_eq_cons_iff.1 ih
          rw [hscan, extend, List.map_cons, hps]
      | cons c' cs =>
        rw [rejoined_cons_cons] at ih
        obtain ⟨p, ps, hscan, rfl, hps⟩ := List.map_eq_cons_iff.1 ih
        rw [hscan, extend, List.map_cons, hps, rejoined_cons_cons]

variable [ChunkUnit α] {kind : ChunkKind} {d : Delimiters} {us : List α}
  (hkind : kind.isDelimited = true) (hu : separator? kind d = some u)

include hkind hu

theorem chunks_eq_rejoined (us : List α) : chunks kind d us = rejoined (us.splitOn u) := by
  rw [chunks, cut_of_some hkind hu, map_body_delimited]

theorem chunks_eq_splitOn (hne : us ≠ []) :
    chunks kind d us = (withoutClose u us).splitOn u := by
  rw [chunks_eq_rejoined hkind hu, rejoined_splitOn u hne]

theorem notMem_of_mem_chunks {c : List α} (hc : c ∈ chunks kind d us) : u ∉ c := by
  obtain ⟨p, hp, rfl⟩ := List.mem_map.1 hc
  obtain ⟨vs, hfits⟩ := ((reads_cut kind d).layout us).exists_of_mem hp
  have hsep := (replaceable_of_isDelimited hkind).sep_eq_false hfits
  rw [separates_of_some hkind hu] at hsep
  intro hmem
  simpa using hsep u hmem

end Piece

/--
Cutting at a delimiter and joining with it undo one another: all of a sequence comes back but for a
delimiter at its end, and all of a list of parts without the delimiter, if the last is not empty.
-/
structure Rejoins {α : Type} [DecidableEq α] [ChunkUnit α] (kind : ChunkKind) (d : Delimiters)
    (u : α) : Prop where
  notMem {us c : List α} : c ∈ chunks kind d us → u ∉ c
  count_eq (us : List α) : (Segmentation.of kind d us).count =
    if us = [] then 0 else us.count u + 1 - if us.getLast? = some u then 1 else 0
  intercalate_chunks (us : List α) : [u].intercalate (chunks kind d us) =
    if us.getLast? = some u then us.dropLast else us
  chunks_intercalate {cs : List (List α)} : cs ≠ [] → (∀ c ∈ cs, u ∉ c) →
    cs.getLast? ≠ some [] → chunks kind d ([u].intercalate cs) = cs

theorem rejoins_of_isDelimited {α : Type} [DecidableEq α] [ChunkUnit α] {kind : ChunkKind}
    {d : Delimiters} {u : α} (hkind : kind.isDelimited = true)
    (hu : Piece.separator? kind d = some u) : Rejoins kind d u where
  notMem hc := Piece.notMem_of_mem_chunks hkind hu hc
  count_eq us := by
    rw [Piece.length_chunks]
    by_cases hus : us = []
    · rw [if_pos hus, hus, Piece.chunks_eq_rejoined hkind hu]
      simp [rejoined]
    · rw [if_neg hus, Piece.chunks_eq_splitOn hkind hu hus, length_splitOn, count_withoutClose]
      split
      case isTrue hlast =>
        have hpos := List.count_pos_iff.2 (List.mem_of_getLast? hlast)
        omega
      case isFalse => rfl
  intercalate_chunks us := by
    by_cases hus : us = []
    · rw [hus, Piece.chunks_eq_rejoined hkind hu]
      simp [rejoined]
    · rw [Piece.chunks_eq_splitOn hkind hu hus, List.intercalate_splitOn]
      rfl
  chunks_intercalate := by
    intro cs hne hcs hlast
    rw [Piece.chunks_eq_rejoined hkind hu, List.splitOn_intercalate u hcs hne,
      rejoined_eq_self_iff.2 hlast]

def ChunkSpec.item (n : Int) : ChunkSpec := ⟨.item, .nth n, none⟩

section Numbers

variable {n : Int}

theorem ChunkSpec.clampedBounds_item_of_nonpos (h : n ≤ 0) (count : Nat) :
    (item n).clampedBounds count = (1, 0) := by
  simp [clampedBounds, bounds, item, Ordinal.resolve, Int.toNat_eq_zero.2 h]

theorem ChunkSpec.clampedBounds_item_natCast {n : Nat} (h : 1 ≤ n) (count : Nat) :
    (item n).clampedBounds count = (n, n) := by
  simp [clampedBounds, bounds, item, Ordinal.resolve, h]

theorem extract_item_of_nonpos {α : Type} [DecidableEq α] [ChunkUnit α] (d : Delimiters)
    (us : List α) (h : n ≤ 0) : extract d (.item n) us = [] := by
  have hb := ChunkSpec.clampedBounds_item_of_nonpos h
  by_cases hcount : (Segmentation.of .item d us).count < 1
  · have hrange := Segmentation.range_of_count_lt (hb _) hcount
    exact (congrArg (Span.slice · us) hrange).trans List.drop_take_self
  · have hrange := Segmentation.range_of_last_lt (hb _) (Nat.not_lt.1 hcount) Nat.one_pos
    exact (congrArg (Span.slice · us) hrange).trans List.drop_take_self

end Numbers

section

variable [DateLibrary]

theorem Elements.extract_item_of_nonpos (vs : List Value) {n : Int} (h : n ≤ 0) :
    Elements.extract (.item n) vs = .empty := by
  rw [extract, range, ChunkSpec.clampedBounds_item_of_nonpos h]
  cases vs <;> rfl

theorem Elements.extract_item_natCast (vs : List Value) {n : Nat} (h : 1 ≤ n) :
    Elements.extract (.item n) vs = vs.getD (n - 1) .empty := by
  rw [extract, range, ChunkSpec.clampedBounds_item_natCast h, List.getD_eq_getElem?_getD]
  by_cases hn : vs.length < n
  · simp only [if_pos hn, Span.slice, List.drop_take_self]
    rw [List.getElem?_eq_none (by omega)]
    rfl
  · have hlt : n - 1 < vs.length := by omega
    have hone : n - (n - 1) = 1 := by omega
    simp only [if_neg hn, if_neg (Nat.lt_irrefl n), Span.slice, Nat.min_eq_left (Nat.not_lt.1 hn),
      List.drop_take, hone]
    rw [List.drop_eq_getElem_cons hlt, List.getElem?_eq_getElem hlt]
    rfl

namespace Access

variable {a : Access} {vs : List Value} {ts : List Text}

def ReadAs (a : Access) (vs : List Value) (ts : List Text) : Prop :=
  List.Forall₂ (fun v t => a.textOf v = .ok t) vs ts

theorem ReadAs.texts_eq (h : a.ReadAs vs ts) : a.texts vs = .ok ts := by
  induction h with
  | nil => rfl
  | cons ht _ ih =>
    rw [texts, ht, ih]
    rfl

theorem ReadAs.getD (h : a.ReadAs vs ts) (i : Nat) :
    a.textOf (vs.getD i .empty) = .ok (ts.getD i []) := by
  induction h generalizing i with
  | nil => rfl
  | cons ht _ ih =>
    cases i with
    | zero => exact ht
    | succ i => exact ih i

end Access

/--
A text whose items are what the elements of a list read as: in their places, and for any number,
where the list gives nothing for one that no element has.
-/
structure ItemsOf (a : Access) (vs : List Value) (t : Text) : Prop where
  count_eq : (Segmentation.of .item a.config.delimiters t).count = vs.length
  get_eq {n : Nat} (h : n < vs.length) :
    a.textOf vs[n] = .ok ((Segmentation.of .item a.config.delimiters t).get (n + 1 : Nat))
  item_eq (n : Int) : a.textOf (Elements.extract (.item n) vs) =
    .ok (extract a.config.delimiters (.item n) t)

theorem itemsOf_of_readAs {a : Access} {vs : List Value} {ts : List Text} {t : Text}
    (h : a.ReadAs vs ts) (hchunks : chunks .item a.config.delimiters t = ts) : ItemsOf a vs t where
  count_eq := by rw [Piece.length_chunks, hchunks, List.Forall₂.length_eq h]
  get_eq {n} hn := by
    have htext := h.getD n
    rw [List.getD_eq_getElem?_getD, List.getElem?_eq_getElem hn, Option.getD_some] at htext
    rw [htext, Segmentation.get_eq_getD (by omega), hchunks, Int.toNat_natCast, Nat.add_sub_cancel]
  item_eq n := by
    by_cases hn : n ≤ 0
    · rw [Elements.extract_item_of_nonpos vs hn, extract_item_of_nonpos _ t hn]
      rfl
    · obtain ⟨m, rfl⟩ := Int.eq_ofNat_of_zero_le (Int.le_of_lt (Int.not_le.1 hn))
      have hm : 1 ≤ m := by omega
      rw [Elements.extract_item_natCast vs hm, h.getD,
        Piece.extract_eq_getD hm (ChunkSpec.clampedBounds_item_natCast hm)]
      exact congrArg (fun cs => Except.ok (cs.getD (m - 1) [])) hchunks.symm

theorem rejoins_delimited {α : Type} [DecidableEq α] [ChunkUnit α] {kind : ChunkKind}
    {d : Delimiters} {u : α} (hkind : kind.isDelimited = true)
    (hu : Piece.separator? kind d = some u) :
    Rejoins kind d u ∧ ∀ (a : Access) {vs : List Value} {ts : List Text}, vs ≠ [] →
      a.ReadAs vs ts → (∀ t ∈ ts, a.config.delimiters.item ∉ t) → ts.getLast? ≠ some [] →
      ∃ t, a.textOf (.list vs) = .ok t ∧ ItemsOf a vs t := by
  refine ⟨rejoins_of_isDelimited hkind hu, ?_⟩
  intro a vs ts hne hread hitem hlast
  have hts : ts ≠ [] := by
    rintro rfl
    exact hne (List.forall₂_nil_right_iff.1 hread)
  have hrejoins : Rejoins (α := Char) .item a.config.delimiters a.config.delimiters.item :=
    rejoins_of_isDelimited rfl rfl
  refine ⟨_, ?_, itemsOf_of_readAs hread (hrejoins.chunks_intercalate hts hitem hlast)⟩
  rw [Access.textOf, hread.texts_eq]
  rfl

end

theorem rejoins_delimited_bytes :
    let d : Delimiters := ⟨',', ';', '\n'⟩
    let a := (Context.ofConfig .standard).outer
    let vs : List Value := [.text ['a', ' '], .text [], .list [.boolean true]]
    ChunkKind.column.isDelimited = true ∧ Piece.separator? .column d = some (59 : UInt8) ∧
      [(59 : UInt8)].intercalate (chunks .column d [59, 1, 59, 59]) = [59, 1, 59] ∧
      vs ≠ [] ∧ a.ReadAs vs [['a', ' '], [], "true".toList] ∧
      ∃ t, a.textOf (.list vs) = .ok t ∧ ItemsOf a vs t := by
  intro d a vs
  have hkind : ChunkKind.column.isDelimited = true := rfl
  have hu : Piece.separator? .column d = some (59 : UInt8) := by decide
  have hread : a.ReadAs vs [['a', ' '], [], "true".toList] :=
    .cons rfl (.cons rfl (.cons rfl .nil))
  obtain ⟨hrejoins, hlist⟩ := rejoins_delimited hkind hu
  refine ⟨hkind, hu, hrejoins.intercalate_chunks _, List.cons_ne_nil _ _, hread, ?_⟩
  exact hlist a (List.cons_ne_nil _ _) hread (by decide) (by decide)

end ScriptValue
