import ScriptValue.Proofs.Chunk.Subrange
import Mathlib.Data.List.Basic

namespace ScriptValue

def ChunkKind.isSeparated : ChunkKind → Bool
  | .character | .sentence => false
  | _ => true

section Edit

variable {α : Type} [DecidableEq α] [ChunkUnit α]

theorem extract_nil (d : Delimiters) (spec : ChunkSpec) : extract d spec ([] : List α) = [] := by
  simp [extract, Segmentation.extract, Segmentation.of, Span.slice]

theorem exists_splice_nil (d : Delimiters) (spec : ChunkSpec) :
    ∃ padding : List α, ∀ p us, splice d spec p us [] = padding ++ us := by
  let s := Segmentation.of spec.kind d ([] : List α)
  let first := (spec.clampedBounds s.count).1
  by_cases h : s.count < first
  · exact ⟨s.padding first, fun _ _ => if_pos h⟩
  · refine ⟨[], fun p us => (if_neg h).trans ?_⟩
    simp [Segmentation.replace, Segmentation.of]

theorem splice_into_of_le {d : Delimiters} {spec : ChunkSpec} {us : List α} (body : List α)
    (h : (spec.clampedBounds (Segmentation.of spec.kind d us).count).1 ≤
      (Segmentation.of spec.kind d us).count) :
    splice d spec .into body us =
      us.take ((Segmentation.of spec.kind d us).range spec).start ++ body ++
        us.drop ((Segmentation.of spec.kind d us).range spec).stop :=
  if_neg (Nat.not_lt.2 h)

end Edit

end ScriptValue

namespace ScriptValue.Piece

variable {α : Type}

/-- Units that are one chunk by themselves. -/
structure Unbroken (sep : α → Bool) (us : List α) : Prop where
  ne_nil : us ≠ []
  sep_eq_false : ∀ u ∈ us, sep u = false

theorem Unbroken.of_mem_head? {sep : α → Bool} {us vs : List α} (h : Unbroken sep us) :
    ∀ u ∈ (us ++ vs).head?, sep u = false := by
  cases us with
  | nil => exact absurd rfl h.ne_nil
  | cons u us =>
    intro v hv
    exact h.sep_eq_false v (Option.some.inj hv ▸ List.mem_cons_self)

/-- Pieces that are told from the unit behind them, and whose chunks can be written. -/
structure Replaceable (Fits : Piece α → List α → Prop) (sep : α → Bool) : Prop where
  of_head? {p us vs} : us.head? = vs.head? → Fits p us → Fits p vs
  sep_eq_false {p us} : Fits p us → ∀ u ∈ p.body, sep u = false
  replace {p q us vs body} : Fits p us → Fits q vs → Unbroken sep body →
    Fits ⟨p.lead, body, q.close⟩ vs
  before {p q us vs body} : Fits p (q.units ++ us) → Fits q us → q.units ≠ [] →
    Unbroken sep body → Fits p (q.lead ++ (body ++ vs))

theorem replaceable_run (sep : α → Bool) : Replaceable (Run sep) sep where
  of_head? := by
    intro p us vs heq h
    cases h with
    | mk hlead hne hbody hrest => exact .mk hlead hne hbody (heq ▸ hrest)
  sep_eq_false := by
    intro p us h
    cases h with
    | mk _ _ hbody => exact hbody
  replace := by
    intro p q us vs body hp hq hbody
    cases hp with
    | mk hlead =>
      cases hq with
      | mk _ _ _ hrest => exact .mk hlead hbody.ne_nil hbody.sep_eq_false hrest
  before := by
    intro p q us vs body hp hq _ _
    cases hq with
    | @mk lead old _ _ hne hold =>
      cases lead with
      | cons u lead =>
        cases hp with
        | mk hlead hne hbody hrest => exact .mk hlead hne hbody hrest
      | nil =>
        -- a run is followed by a unit that separates, so no chunk begins right behind it
        obtain ⟨u, old, rfl⟩ := List.exists_cons_of_ne_nil hne
        cases hp with
        | mk _ _ _ hrest =>
          have hsep : sep u = true := hrest u rfl
          simp [hold u List.mem_cons_self] at hsep

structure Closing (sep : α → Bool) (Closes : List α → List α → Prop) : Prop where
  ne_nil {close us} : Closes close us → close ≠ []
  sep_eq_true {close us} : Closes close us → ∀ u ∈ close.getLast?, sep u = true
  of_head? {close us vs} : us.head? = vs.head? → Closes close us → Closes close vs
  of_sep_eq_false {close us vs} : (∀ u ∈ vs.head?, sep u = false) → Closes close us →
    Closes close vs

section Terminated

variable {sep : α → Bool} {Closes : List α → List α → Prop}

theorem Terminated.lead_eq_nil {p : Piece α} {us : List α} (h : Terminated sep Closes p us) :
    p.lead = [] := by
  cases h with
  | mk => rfl
  | last => rfl

theorem replaceable_terminated (hc : Closing sep Closes) :
    Replaceable (Terminated sep Closes) sep where
  of_head? := by
    intro p us vs heq h
    cases h with
    | mk hbody hclose => exact .mk hbody (hc.of_head? heq hclose)
    | last hbody hne =>
      rw [List.head?_eq_none_iff.1 heq.symm]
      exact .last hbody hne
  sep_eq_false := by
    intro p us h
    cases h with
    | mk hbody => exact hbody
    | last hbody => exact hbody
  replace := by
    intro p q us vs body hp hq hbody
    rw [hp.lead_eq_nil]
    cases hq with
    | mk _ hclose => exact .mk hbody.sep_eq_false hclose
    | last => exact .last hbody.sep_eq_false hbody.ne_nil
  before := by
    intro p q us vs body hp hq hne hbody
    rw [hq.lead_eq_nil, List.nil_append]
    generalize hws : q.units ++ us = ws at hp
    cases hp with
    | mk hold hclose => exact .mk hold (hc.of_sep_eq_false hbody.of_mem_head? hclose)
    | last => exact absurd (List.append_eq_nil_iff.1 hws).1 hne

end Terminated

theorem replaceable_whole : Replaceable (Whole (α := α)) fun _ => false where
  of_head? := by
    intro p us vs heq h
    cases h with
    | mk hne =>
      rw [List.head?_eq_none_iff.1 heq.symm]
      exact .mk hne
  sep_eq_false := by
    intro p us _ u _
    rfl
  replace := by
    intro p q us vs body hp hq hbody
    cases hp with
    | mk =>
      cases hq with
      | mk => exact .mk hbody.ne_nil
  before := by
    intro p q us vs body hp _ hne _
    generalize hws : q.units ++ us = ws at hp
    cases hp with
    | mk => exact absurd (List.append_eq_nil_iff.1 hws).1 hne

theorem closing_delimiter [DecidableEq α] (d : α) :
    Closing (· == d) fun close (_ : List α) => close = [d] where
  ne_nil := by
    rintro _ us rfl
    exact List.cons_ne_nil d []
  sep_eq_true := by
    rintro _ us rfl u hu
    simpa using hu.symm
  of_head? _ h := h
  of_sep_eq_false _ h := h

section Kinds

variable [ChunkUnit α]

theorem closing_lineEnd [LawfulChunkUnit α] :
    Closing (ChunkUnit.isLineBreak (α := α)) LineEnd where
  ne_nil := by
    intro close us h
    cases h with
    | pair => exact List.cons_ne_nil _ _
    | single => exact List.cons_ne_nil _ _
  sep_eq_true := by
    intro close us h u hu
    cases h with
    | @pair _ v _ _ hfeed =>
      exact Option.some.inj hu ▸ LawfulChunkUnit.isLineBreak_of_isFeed v hfeed
    | single hbreak => exact Option.some.inj hu ▸ hbreak
  of_head? := by
    intro close us vs heq h
    cases h with
    | pair hreturn hfeed => exact .pair hreturn hfeed
    | single hbreak hpair => exact .single hbreak (heq ▸ hpair)
  of_sep_eq_false := by
    intro close us vs hvs h
    cases h with
    | pair hreturn hfeed => exact .pair hreturn hfeed
    | single hbreak =>
      refine .single hbreak fun _ v hv => ?_
      refine Bool.eq_false_iff.2 fun hfeed => ?_
      have hbreak := LawfulChunkUnit.isLineBreak_of_isFeed v hfeed
      rw [hvs v hv] at hbreak
      cases hbreak

variable [DecidableEq α]

def separates (kind : ChunkKind) (d : Delimiters) (u : α) : Bool :=
  match kind with
  | .character | .sentence => false
  | .word => ChunkUnit.isBlank u
  | .paragraph | .line => ChunkUnit.isLineBreak u
  | .item | .column | .row => separator? kind d == some u

section Delimited

variable {kind : ChunkKind} {d : Delimiters} (hkind : kind.isDelimited = true)

include hkind

theorem separates_of_some {u : α} (h : separator? kind d = some u) :
    separates kind d = (· == u) := by
  funext v
  cases kind <;> simp_all [ChunkKind.isDelimited, separates, BEq.comm (a := u)]

theorem separates_of_none (h : separator? kind d = (none : Option α)) :
    separates kind d = fun _ : α => false := by
  funext v
  cases kind <;> simp_all [ChunkKind.isDelimited, separates]

theorem replaceable_of_isDelimited : Replaceable (Fits (α := α) kind d) (separates kind d) := by
  cases h : (separator? kind d : Option α) with
  | some u =>
    rw [fits_of_some hkind h, separates_of_some hkind h]
    exact replaceable_terminated (closing_delimiter u)
  | none =>
    rw [fits_of_none hkind h, separates_of_none hkind h]
    exact replaceable_whole

end Delimited

theorem replaceable_fits [LawfulChunkUnit α] {kind : ChunkKind} (d : Delimiters)
    (hkind : kind.isSeparated = true) : Replaceable (Fits (α := α) kind d) (separates kind d) := by
  cases kind with
  | character => cases hkind
  | word => exact replaceable_run _
  | sentence => cases hkind
  | paragraph => exact replaceable_run _
  | line => exact replaceable_terminated closing_lineEnd
  | item => exact replaceable_of_isDelimited rfl
  | column => exact replaceable_of_isDelimited rfl
  | row => exact replaceable_of_isDelimited rfl

end Kinds

section Layouts

variable {Fits : Piece α → List α → Prop} {Bare : List α → Prop} {sep : α → Bool}

theorem Layout.exchange (hr : Replaceable Fits sep) (hne : ∀ {p us}, Fits p us → p.units ≠ [])
    {xs ps qs : List (Piece α)} {us ws : List α} (hus : Layout Fits Bare (xs ++ ps) us)
    (hws : Layout Fits Bare qs ws)
    (hlast : ∀ {x vs}, Layout Fits Bare ps vs → Fits x vs → Fits x ws) :
    Layout Fits Bare (xs ++ qs) (xs.flatMap units ++ ws) := by
  induction xs generalizing us with
  | nil => exact hws
  | cons x xs ih =>
    cases hus with
    | cons hx hxs =>
      rw [List.flatMap_cons, List.append_assoc]
      refine .cons ?_ (ih hxs)
      cases xs with
      | nil => exact hlast hxs hx
      | cons y xs =>
        cases hxs with
        | cons hy =>
          -- `x` does not come last, so the unit behind it is the first of `y`, as before
          refine hr.of_head? ?_ hx
          rw [List.flatMap_cons, List.append_assoc, List.head?_append_of_ne_nil _ (hne hy),
            List.head?_append_of_ne_nil _ (hne hy)]

theorem Layout.replace (hr : Replaceable Fits sep) (hne : ∀ {p us}, Fits p us → p.units ≠ [])
    {body : List α} (hbody : Unbroken sep body) {xs ps ys : List (Piece α)} {p q : Piece α}
    {us rest : List α} (hus : Layout Fits Bare (xs ++ p :: ps) us) (hq : Fits q rest)
    (hrest : Layout Fits Bare ys rest) :
    Layout Fits Bare (xs ++ ⟨p.lead, body, q.close⟩ :: ys)
      (xs.flatMap units ++ (p.lead ++ (body ++ (q.close ++ rest)))) := by
  obtain ⟨_, _, hp⟩ := hus.drop
  cases hp with
  | cons hp =>
    refine hus.exchange hr hne ?_ ?_
    · rw [← append_units]
      exact .cons (hr.replace hp hq hbody) hrest
    · intro x vs hvs hx
      cases hvs with
      | cons hp => exact hr.before hx hp (hne hp) hbody

theorem Layout.extend (hr : Replaceable Fits sep) (hne : ∀ {p us}, Fits p us → p.units ≠ [])
    {xs ys : List (Piece α)} {p q : Piece α} {us vs : List α}
    (hus : Layout Fits Bare (xs ++ [p]) us) (hhead : p.units.head? = q.units.head?)
    (hq : Fits q vs) (hvs : Layout Fits Bare ys vs) :
    Layout Fits Bare (xs ++ q :: ys) (xs.flatMap units ++ (q.units ++ vs)) := by
  refine hus.exchange hr hne (.cons hq hvs) ?_
  intro x ws hws hx
  cases hws with
  | cons hp =>
    refine hr.of_head? ?_ hx
    rw [List.head?_append_of_ne_nil _ (hne hp), List.head?_append_of_ne_nil _ (hne hq), hhead]

end Layouts

section Splice

variable [DecidableEq α] [ChunkUnit α]

theorem length_cut (kind : ChunkKind) (d : Delimiters) (us : List α) :
    (Segmentation.of kind d us).count = (cut kind d us).length := length_spans 0 _

theorem length_chunks (kind : ChunkKind) (d : Delimiters) (us : List α) :
    (Segmentation.of kind d us).count = (chunks kind d us).length := by
  rw [length_cut, chunks, List.length_map]

theorem span_of_cut {kind : ChunkKind} {d : Delimiters} {us : List α} {xs ys : List (Piece α)}
    {p : Piece α} (hcut : cut kind d us = xs ++ p :: ys) :
    (Segmentation.of kind d us).span (xs.length + 1 : Nat) =
      ⟨(xs.flatMap units).length + p.lead.length,
        (xs.flatMap units).length + p.lead.length + p.body.length⟩ := by
  have hcut' : cut kind d us = xs ++ ([p] ++ ys) := hcut
  obtain ⟨cs, hspans⟩ := spans_of_cut hcut'
  exact Segmentation.span_of_chunk? (chunk?_add_one hspans)

variable {spec : ChunkSpec} {d : Delimiters} {us : List α} {xs ps zs ys : List (Piece α)}
  {p q : Piece α} {first last : Nat}

theorem splice_of_cut
    (hb : spec.clampedBounds (Segmentation.of spec.kind d us).count = (first, last))
    (hcut : cut spec.kind d us = xs ++ p :: ps) (hfirst : first = xs.length + 1)
    (hcut' : cut spec.kind d us = zs ++ q :: ys)
    (hlast : min last (Segmentation.of spec.kind d us).count = zs.length + 1)
    (hle : first ≤ last) (body : List α) :
    ∃ rest, Fits spec.kind d q rest ∧ Layout (Fits spec.kind d) (Bare spec.kind) ys rest ∧
      splice d spec .into body us =
        xs.flatMap units ++ (p.lead ++ (body ++ (q.close ++ rest))) := by
  have hlayout := (reads_cut spec.kind d).layout us
  obtain ⟨vs, hvs, hp⟩ := (hcut ▸ hlayout).drop
  obtain ⟨ws, hws, hq⟩ := (hcut' ▸ hlayout).drop
  cases hp with
  | @cons _ _ vs hp hps =>
    cases hq with
    | @cons _ _ rest hq hys =>
      refine ⟨rest, hq, hys, ?_⟩
      have hcount : first ≤ (Segmentation.of spec.kind d us).count := by
        rw [length_cut, hcut, List.length_append, List.length_cons]
        omega
      have hstart : us = (xs.flatMap units ++ p.lead) ++ (p.body ++ (p.close ++ vs)) := by
        rw [hvs, append_units, List.append_assoc]
      have hstop : us = (zs.flatMap units ++ (q.lead ++ q.body)) ++ (q.close ++ rest) := by
        rw [hws, append_units]
        simp only [List.append_assoc]
      have hrange := Segmentation.range_of_le hb hcount hle
      rw [hlast, hfirst, span_of_cut hcut, span_of_cut hcut'] at hrange
      rw [splice_into_of_le body (by rwa [hb]), hrange]
      have htake : us.take ((xs.flatMap units).length + p.lead.length) =
          xs.flatMap units ++ p.lead := by
        rw [hstart]
        exact List.take_left' (List.length_append)
      have hdrop : us.drop ((zs.flatMap units).length + q.lead.length + q.body.length) =
          q.close ++ rest := by
        rw [hstop]
        exact List.drop_left' (by simp [Nat.add_assoc])
      rw [htake, hdrop, List.append_assoc, List.append_assoc]

variable [LawfulChunkUnit α] {body : List α} (hkind : spec.kind.isSeparated = true)
  (hbody : Unbroken (separates spec.kind d) body)

include hkind hbody

theorem cut_splice
    (hb : spec.clampedBounds (Segmentation.of spec.kind d us).count = (first, last))
    (hcut : cut spec.kind d us = xs ++ p :: ps) (hfirst : first = xs.length + 1)
    (hcut' : cut spec.kind d us = zs ++ q :: ys)
    (hlast : min last (Segmentation.of spec.kind d us).count = zs.length + 1)
    (hle : first ≤ last) :
    cut spec.kind d (splice d spec .into body us) = xs ++ ⟨p.lead, body, q.close⟩ :: ys := by
  obtain ⟨rest, hq, hys, hsplice⟩ := splice_of_cut hb hcut hfirst hcut' hlast hle body
  have hreads := reads_cut (α := α) spec.kind d
  rw [hsplice, cut_eq_iff]
  exact .replace (replaceable_fits d hkind) hreads.ne_nil hbody (hcut ▸ hreads.layout us) hq hys

theorem chunks_splice_of_le
    (hb : spec.clampedBounds (Segmentation.of spec.kind d us).count = (first, last))
    (hcount : first ≤ (Segmentation.of spec.kind d us).count) (hle : first ≤ last) :
    chunks spec.kind d (splice d spec .into body us) =
      (chunks spec.kind d us).take (first - 1) ++ body ::
        (chunks spec.kind d us).drop (min last (Segmentation.of spec.kind d us).count) := by
  obtain ⟨_, _, hb', hpos⟩ := spec.exists_clampedBounds (Segmentation.of spec.kind d us).count
  obtain ⟨rfl, -⟩ := Prod.mk.inj (hb.symm.trans hb')
  have hcut {i : Nat} (h : i < (cut spec.kind d us).length) : cut spec.kind d us =
      (cut spec.kind d us).take i ++ (cut spec.kind d us)[i] ::
        (cut spec.kind d us).drop (i + 1) := by
    rw [← List.drop_eq_getElem_cons h, List.take_append_drop]
  have hlength := length_cut spec.kind d us
  have hi : first - 1 < (cut spec.kind d us).length := by omega
  have hj : min last (Segmentation.of spec.kind d us).count - 1 < (cut spec.kind d us).length := by
    omega
  have hsplice := cut_splice hkind hbody hb (hcut hi)
    (by rw [List.length_take_of_le (Nat.le_of_lt hi)]; omega) (hcut hj)
    (by rw [List.length_take_of_le (Nat.le_of_lt hj)]; omega) hle
  have hindex : min last (Segmentation.of spec.kind d us).count - 1 + 1 =
      min last (Segmentation.of spec.kind d us).count := by omega
  rw [chunks, hsplice, hindex, chunks, List.map_append, List.map_cons, List.map_take,
    List.map_drop]

end Splice

end ScriptValue.Piece
