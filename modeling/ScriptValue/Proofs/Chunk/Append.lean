import ScriptValue.Proofs.Chunk.Extend

namespace ScriptValue

class DistinctBreaks (α : Type) [ChunkUnit α] : Prop extends LawfulChunkUnit α where
  isReturn_of_isFeed (u : α) : ChunkUnit.isFeed u = true → ChunkUnit.isReturn u = false

instance : DistinctBreaks Char where
  isReturn_of_isFeed c h := by simp_all [ChunkUnit.isFeed, ChunkUnit.isReturn]

instance : DistinctBreaks UInt8 where
  isReturn_of_isFeed b h := by simp_all [ChunkUnit.isFeed, ChunkUnit.isReturn]

namespace Piece

variable {α : Type}

def joins [ChunkUnit α] (kind : ChunkKind) (us vs : List α) : Bool :=
  kind == .line && us.getLast?.any ChunkUnit.isReturn && vs.head?.any ChunkUnit.isFeed

section Terminated

variable {sep : α → Bool} {Closes : List α → List α → Prop} {p : Piece α} {us : List α}

theorem Terminated.sep_of_ne_nil (hc : Closing sep Closes) (hp : Terminated sep Closes p us)
    (hus : us ≠ []) : ∀ u ∈ p.units.getLast?, sep u = true := by
  cases hp with
  | mk _ hclose =>
    rw [units, List.getLast?_append_of_ne_nil _ (hc.ne_nil hclose)]
    exact hc.sep_eq_true hclose
  | last => exact absurd rfl hus

theorem whole_eq_terminated :
    Whole (α := α) = Terminated (fun _ => false) fun _ _ => False := by
  funext p us
  refine propext ⟨fun h => ?_, fun h => ?_⟩
  · cases h with
    | mk hne => exact .last (fun _ _ => rfl) hne
  · cases h with
    | mk _ hclose => exact hclose.elim
    | last _ hne => exact .mk hne

theorem closing_nothing : Closing (fun _ : α => false) fun _ _ => False :=
  ⟨False.elim, False.elim, fun _ h => h, fun _ h => h⟩

end Terminated

theorem LineEnd.of_not_joins [ChunkUnit α] {close vs : List α} (h : LineEnd close [])
    (hjoins : joins .line close vs = false) : LineEnd close vs := by
  cases h with
  | pair hr hf => exact .pair hr hf
  | single hbreak =>
    refine .single hbreak fun hr v hv => ?_
    rw [joins, hv] at hjoins
    simpa [hr] using hjoins

variable [DecidableEq α] [ChunkUnit α] {kind : ChunkKind} {d : Delimiters} {us vs : List α}

/-- Kinds whose chunks are closed by separators, before all that a separator does not join with. -/
structure ClosedBy (kind : ChunkKind) (d : Delimiters) (Closes : List α → List α → Prop) :
    Prop where
  closing : Closing (separates kind d) Closes
  fits_eq : Fits kind d = Terminated (separates kind d) Closes
  bare_eq : Bare kind = fun us : List α => us = []
  of_not_joins {close vs} : Closes close [] → joins kind close vs = false → Closes close vs

theorem ClosedBy.reads {Closes : List α → List α → Prop} (h : ClosedBy kind d Closes) :
    Reads (cut kind d) (Terminated (separates kind d) Closes) (· = []) := by
  have hreads := reads_cut (α := α) kind d
  rwa [h.fits_eq, h.bare_eq] at hreads

theorem exists_closedBy_of_isDelimited (hkind : kind.isDelimited = true) (d : Delimiters) :
    ∃ Closes : List α → List α → Prop, ClosedBy kind d Closes := by
  have hbare := bare_of_isDelimited (α := α) hkind
  cases h : (separator? kind d : Option α) with
  | some u =>
    have hsep := separates_of_some hkind h
    exact ⟨fun close _ => close = [u], hsep ▸ closing_delimiter u, hsep ▸ fits_of_some hkind h,
      hbare, fun h _ => h⟩
  | none =>
    have hsep := separates_of_none hkind h
    refine ⟨fun _ _ => False, hsep ▸ closing_nothing, ?_, hbare, fun h _ => h⟩
    rw [hsep, fits_of_none hkind h, whole_eq_terminated]

theorem exists_closedBy [LawfulChunkUnit α] (hkind : kind.padsWhenExtended = true)
    (d : Delimiters) : ∃ Closes : List α → List α → Prop, ClosedBy kind d Closes := by
  cases kind with
  | line => exact ⟨LineEnd, closing_lineEnd, rfl, rfl, LineEnd.of_not_joins⟩
  | item => exact exists_closedBy_of_isDelimited rfl d
  | column => exact exists_closedBy_of_isDelimited rfl d
  | row => exact exists_closedBy_of_isDelimited rfl d
  | _ => cases hkind

theorem chunks_append_of_not_joins [LawfulChunkUnit α] (hkind : kind.padsWhenExtended = true)
    (hus : ∀ u ∈ us.getLast?, separates kind d u = true) (hjoins : joins kind us vs = false) :
    chunks kind d (us ++ vs) = chunks kind d us ++ chunks kind d vs := by
  obtain ⟨Closes, hclosed⟩ := exists_closedBy (α := α) hkind d
  cases hlast : us.getLast? with
  | none =>
    have hnil : cut kind d ([] : List α) = [] := hclosed.reads.bare rfl
    rw [List.getLast?_eq_none_iff.1 hlast, chunks, chunks, hnil]
    rfl
  | some u =>
    refine map_body_append_of_closed hclosed.closing hclosed.reads hlast (hus u hlast) ?_
    intro close hclose hmem
    refine hclosed.of_not_joins hclose ?_
    rwa [joins, hmem, ← hlast]

theorem chunks_append_of_joins [DistinctBreaks α] (hjoins : joins kind us vs = true) :
    ∃ cs, chunks kind d vs = [] :: cs ∧ chunks kind d (us ++ vs) = chunks kind d us ++ cs := by
  simp only [joins, Bool.and_eq_true, beq_iff_eq, Option.any_eq_true] at hjoins
  obtain ⟨⟨rfl, u, hu, hreturn⟩, v, hv, hfeed⟩ := hjoins
  obtain ⟨vs, rfl⟩ := List.head?_eq_some_iff.1 hv
  have hnotReturn := DistinctBreaks.isReturn_of_isFeed v hfeed
  have hnotFeed : ChunkUnit.isFeed u = false := by
    refine Bool.eq_false_iff.2 fun h => ?_
    rw [DistinctBreaks.isReturn_of_isFeed u h] at hreturn
    cases hreturn
  have hend : LineEnd [v] vs := by
    refine .single (LawfulChunkUnit.isLineBreak_of_isFeed v hfeed) fun h => ?_
    rw [hnotReturn] at h
    cases h
  refine ⟨chunks .line d vs, ?_, map_body_append_of_return hu hreturn hnotFeed hfeed vs⟩
  exact congrArg (List.map body) (lines_append hend)

/-- Chunks with others behind them, of which the first one is lost where two breaks join. -/
inductive Joined : Bool → List (List α) → List (List α) → List (List α) → Prop
  | apart (cs ds) : Joined false cs ds (cs ++ ds)
  | joined (cs ds) : Joined true cs ([] :: ds) (cs ++ ds)

theorem joined_chunks [DistinctBreaks α] (hkind : kind.padsWhenExtended = true)
    (hus : ∀ u ∈ us.getLast?, separates kind d u = true) (vs : List α) :
    Joined (joins kind us vs) (chunks kind d us) (chunks kind d vs)
      (chunks kind d (us ++ vs)) := by
  cases hjoins : joins kind us vs with
  | false =>
    rw [chunks_append_of_not_joins hkind hus hjoins]
    exact .apart _ _
  | true =>
    obtain ⟨cs, hvs, hchunks⟩ := chunks_append_of_joins (d := d) hjoins
    rw [hvs, hchunks]
    exact .joined _ _

end Piece

end ScriptValue
