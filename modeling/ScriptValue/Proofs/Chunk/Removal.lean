import ScriptValue.Proofs.Chunk.Replace

/-!
Taking chunks out. What was taken out leaves a gap that the chunk behind it moves into, or that the
chunk before it is closed by; so the pieces about the gap stay pieces, for all kinds but lines,
where a return and a feed may come together.
-/

namespace ScriptValue.Piece

variable {α : Type}

structure Removable (Fits : Piece α → List α → Prop) (Bare : List α → Prop) : Prop where
  follow {x p q us vs} : Fits x (p.units ++ us) → Fits p us → Fits q vs → q.lead = p.lead →
    Fits x (q.units ++ vs)
  moved {p q us vs} : Fits p us → Fits q vs → Fits ⟨p.lead, q.body, q.close⟩ vs
  closed {p q us vs} : Fits p us → Fits q vs → Bare vs → p.body ≠ [] ∨ q.close ≠ [] →
    Fits ⟨p.lead, p.body, q.close⟩ vs
  emptied {p q us vs} : Fits p us → Fits q vs → Bare vs →
    Bare (p.lead ++ (q.close ++ vs)) ∨ Fits ⟨p.lead, [], q.close⟩ vs
  eq_nil_of_bare {p us vs} : Fits p us → p.body = [] → Bare vs → vs = []

theorem removable_single : Removable (Single (α := α)) (· = []) where
  follow := by
    intro x p q us vs hx _ _ _
    cases hx with
    | mk u => exact .mk u _
  moved := by
    intro p q us vs hp hq
    cases hp with
    | mk =>
      cases hq with
      | mk u => exact .mk u vs
  closed := by
    intro p q us vs hp hq _ _
    cases hp with
    | mk u =>
      cases hq with
      | mk => exact .mk u vs
  emptied := by
    intro p q us vs hp hq hvs
    cases hp with
    | mk =>
      cases hq with
      | mk => exact .inl hvs
  eq_nil_of_bare := by
    intro p us vs _ _ hvs
    exact hvs

theorem removable_whole : Removable (Whole (α := α)) (· = []) where
  follow := by
    intro x p q us vs hx hp _ _
    generalize hws : p.units ++ us = ws at hx
    cases hx with
    | mk => exact absurd (List.append_eq_nil_iff.1 hws).1 (reads_undelimited.ne_nil hp)
  moved := by
    intro p q us vs hp hq
    cases hp with
    | mk =>
      cases hq with
      | mk hne => exact .mk hne
  closed := by
    intro p q us vs hp hq _ _
    cases hp with
    | mk hne =>
      cases hq with
      | mk => exact .mk hne
  emptied := by
    intro p q us vs hp hq hvs
    cases hp with
    | mk =>
      cases hq with
      | mk => exact .inl hvs
  eq_nil_of_bare := by
    intro p us vs _ _ hvs
    exact hvs

theorem removable_run (sep : α → Bool) : Removable (Run sep) fun us => ∀ u ∈ us, sep u = true where
  follow := by
    intro x p q us vs hx hp hq hlead
    cases hx with
    | mk hxlead hne hbody hrest =>
      refine .mk hxlead hne hbody ?_
      cases hp with
      | @mk lead old _ _ hpne hold =>
        cases lead with
        | nil =>
          -- a run is followed by a unit that separates, so no chunk begins right behind it
          obtain ⟨u, old, rfl⟩ := List.exists_cons_of_ne_nil hpne
          have hsep : sep u = true := hrest u rfl
          simp [hold u List.mem_cons_self] at hsep
        | cons v lead =>
          intro w hw
          refine hrest w ?_
          rw [append_units, hlead] at hw
          exact hw
  moved := by
    intro p q us vs hp hq
    cases hp with
    | mk hlead =>
      cases hq with
      | mk _ hne hbody hrest => exact .mk hlead hne hbody hrest
  closed := by
    intro p q us vs hp hq _ _
    cases hp with
    | mk hlead hne hbody =>
      cases hq with
      | mk _ _ _ hrest => exact .mk hlead hne hbody hrest
  emptied := by
    intro p q us vs hp hq hvs
    cases hp with
    | mk hlead =>
      cases hq with
      | mk => exact .inl (List.forall_mem_append.2 ⟨hlead, hvs⟩)
  eq_nil_of_bare := by
    intro p us vs hp hbody _
    cases hp with
    | mk _ hne => exact absurd hbody hne

theorem removable_terminated {sep : α → Bool} {Closes : List α → List α → Prop}
    (hc : Closing sep Closes) (hany : ∀ {close us vs}, Closes close us → Closes close vs) :
    Removable (Terminated sep Closes) (· = []) where
  follow := by
    intro x p q us vs hx hp _ _
    generalize hws : p.units ++ us = ws at hx
    cases hx with
    | mk hbody hclose => exact .mk hbody (hany hclose)
    | last =>
      have hunits := (List.append_eq_nil_iff.1 hws).1
      cases hp with
      | mk _ hclose => simp [units, hc.ne_nil hclose] at hunits
      | last _ hne => simp [units, hne] at hunits
  moved := by
    intro p q us vs hp hq
    rw [hp.lead_eq_nil]
    cases hq with
    | mk hbody hclose => exact .mk hbody hclose
    | last hbody hne => exact .last hbody hne
  closed := by
    intro p q us vs hp hq _ hne
    have hbody := (replaceable_terminated hc).sep_eq_false hp
    rw [hp.lead_eq_nil]
    cases hq with
    | mk _ hclose => exact .mk hbody hclose
    | last => exact .last hbody (hne.resolve_right fun h => h rfl)
  emptied := by
    intro p q us vs hp hq _
    rw [hp.lead_eq_nil]
    cases hq with
    | mk _ hclose => exact .inr (.mk (List.forall_mem_nil _) hclose)
    | last => exact .inl rfl
  eq_nil_of_bare := by
    intro p us vs _ _ hvs
    exact hvs

section Kinds

variable [ChunkUnit α]

theorem removable_sentence :
    Removable (Sentence (α := α)) fun us => ∀ u ∈ us, ChunkUnit.isBlank u = true where
  follow := by
    intro x p q us vs hx hp hq hlead
    cases hx with
    | @mk xlead body v _ hxlead hhead hbody hv hend =>
      refine .mk hxlead hhead hbody hv (.inl ?_)
      cases hp with
      | @mk lead old u _ hplead hold _ hu =>
        -- a chunk follows, so what stands before it ends with its last unit
        have hends : endsSentence v ((⟨lead, old ++ [u], []⟩ : Piece α).units ++ us) = true := by
          refine hend.resolve_right fun hblank => ?_
          have hublank := hblank u (by simp [units])
          rw [hu] at hublank
          cases hublank
        cases lead with
        | cons w lead =>
          rw [append_units, hlead]
          exact hends
        | nil =>
          rw [append_units, List.nil_append, endsSentence, Bool.and_eq_true] at hends
          cases old with
          | nil => simp [hu] at hends
          | cons w old =>
            have hw : ChunkUnit.isBlank w = false := hold w rfl
            simp [hw] at hends
  moved := by
    intro p q us vs hp hq
    cases hp with
    | mk hlead =>
      cases hq with
      | mk _ hhead hbody hu hend => exact .mk hlead hhead hbody hu hend
  closed := by
    intro p q us vs hp hq hvs _
    cases hp with
    | mk hlead hhead hbody hu =>
      cases hq with
      | mk => exact .mk hlead hhead hbody hu (.inr hvs)
  emptied := by
    intro p q us vs hp hq hvs
    cases hp with
    | mk hlead =>
      cases hq with
      | mk => exact .inl (List.forall_mem_append.2 ⟨hlead, hvs⟩)
  eq_nil_of_bare := by
    intro p us vs hp hbody _
    cases hp with
    | mk => simp at hbody

variable [DecidableEq α]

theorem removable_fits {kind : ChunkKind} (d : Delimiters) (hkind : kind ≠ .line) :
    Removable (Fits (α := α) kind d) (Bare kind) := by
  have hdelimited : kind.isDelimited = true → Removable (Fits (α := α) kind d) (Bare kind) := by
    intro hdelimited
    rw [bare_of_isDelimited hdelimited]
    cases h : (separator? kind d : Option α) with
    | some u =>
      rw [fits_of_some hdelimited h]
      exact removable_terminated (closing_delimiter u) id
    | none =>
      rw [fits_of_none hdelimited h]
      exact removable_whole
  cases kind with
  | character => exact removable_single
  | word => exact removable_run _
  | sentence => exact removable_sentence
  | paragraph => exact removable_run _
  | line => exact absurd rfl hkind
  | item => exact hdelimited rfl
  | column => exact hdelimited rfl
  | row => exact hdelimited rfl

theorem Fits.body_ne_nil {kind : ChunkKind} {d : Delimiters} {p : Piece α} {us : List α}
    (hkind : kind.padsWhenExtended = false) (h : Fits kind d p us) : p.body ≠ [] := by
  cases kind with
  | character =>
    cases h with
    | mk u => exact List.cons_ne_nil u []
  | word =>
    cases h with
    | mk _ hne => exact hne
  | sentence =>
    cases h with
    | mk => simp
  | paragraph =>
    cases h with
    | mk _ hne => exact hne
  | line => cases hkind
  | item => cases hkind
  | column => cases hkind
  | row => cases hkind

end Kinds

namespace Layout

variable {Fits : Piece α → List α → Prop} {Bare : List α → Prop} {xs ps qs : List (Piece α)}
  {p q : Piece α} {us ws : List α}

theorem exists_cons (h : Layout Fits Bare (p :: ps) us) :
    ∃ vs, us = p.units ++ vs ∧ Fits p vs ∧ Layout Fits Bare ps vs := by
  cases h with
  | cons hp hps => exact ⟨_, rfl, hp, hps⟩

theorem resume (hr : Removable Fits Bare) (hus : Layout Fits Bare (xs ++ p :: ps) us)
    (hws : Layout Fits Bare (q :: qs) ws) (hlead : q.lead = p.lead) :
    Layout Fits Bare (xs ++ q :: qs) (xs.flatMap units ++ ws) := by
  induction xs generalizing us with
  | nil => exact hws
  | cons x xs ih =>
    obtain ⟨vs, rfl, hx, hxs⟩ := hus.exists_cons
    have hlater := ih hxs
    rw [List.flatMap_cons, List.append_assoc]
    refine .cons ?_ hlater
    cases xs with
    | nil =>
      obtain ⟨_, rfl, hp, -⟩ := hxs.exists_cons
      obtain ⟨_, rfl, hq, -⟩ := hws.exists_cons
      exact hr.follow hx hp hq hlead
    | cons y xs =>
      obtain ⟨_, rfl, hy, -⟩ := hxs.exists_cons
      obtain ⟨_, heq, hy', -⟩ := hlater.exists_cons
      rw [heq]
      exact hr.follow hx hy hy' rfl

theorem take (hs : Stable Fits) (hb : Bare []) (h : Layout Fits Bare (xs ++ ps) us) :
    Layout Fits Bare xs (xs.flatMap units) := by
  induction xs generalizing us with
  | nil => exact .nil hb
  | cons x xs ih =>
    obtain ⟨vs, rfl, hx, hxs⟩ := h.exists_cons
    obtain ⟨ws, rfl, -⟩ := hxs.drop
    exact .cons (hs.of_append hx) (ih hxs)

end Layout

end ScriptValue.Piece
