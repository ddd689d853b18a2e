import ScriptValue.Chunk.Piece

/-!
How pieces may follow one another, kind by kind. A piece is judged in front of the units that come
after it, so that each scanner reads off exactly the pieces that were laid out.
-/

namespace ScriptValue.Piece

variable {α : Type}

theorem append_units (lead body close rest : List α) :
    (⟨lead, body, close⟩ : Piece α).units ++ rest = lead ++ (body ++ (close ++ rest)) := by
  simp [units]

inductive Layout (Fits : Piece α → List α → Prop) (Bare : List α → Prop) :
    List (Piece α) → List α → Prop
  | nil {us} : Bare us → Layout Fits Bare [] us
  | cons {p ps us} : Fits p us → Layout Fits Bare ps us → Layout Fits Bare (p :: ps) (p.units ++ us)

structure Reads (scan : List α → List (Piece α)) (Fits : Piece α → List α → Prop)
    (Bare : List α → Prop) : Prop where
  bare {us} : Bare us → scan us = []
  step {p us} : Fits p us → scan (p.units ++ us) = p :: scan us
  ne_nil {p us} : Fits p us → p.units ≠ []
  split us : Bare us ∨ ∃ p rest, Fits p rest ∧ us = p.units ++ rest

namespace Reads

variable {scan : List α → List (Piece α)} {Fits : Piece α → List α → Prop} {Bare : List α → Prop}

theorem eq_of_layout (h : Reads scan Fits Bare) {ps : List (Piece α)} {us : List α}
    (hl : Layout Fits Bare ps us) : scan us = ps := by
  induction hl with
  | nil hb => exact h.bare hb
  | cons hp _ ih => rw [h.step hp, ih]

theorem layout (h : Reads scan Fits Bare) (us : List α) : Layout Fits Bare (scan us) us := by
-- on the length, as a scanner takes off a whole piece at a time
  induction hn : us.length using Nat.strongRecOn generalizing us with
  | ind n ih =>
    cases h.split us with
    | inl hb =>
      rw [h.bare hb]
      exact .nil hb
    | inr hsplit =>
      obtain ⟨p, rest, hp, rfl⟩ := hsplit
      have hpos := List.length_pos_iff.2 (h.ne_nil hp)
      rw [List.length_append] at hn
      rw [h.step hp]
      exact .cons hp (ih rest.length (by omega) rest rfl)

theorem eq_iff (h : Reads scan Fits Bare) {ps : List (Piece α)} {us : List α} :
    scan us = ps ↔ Layout Fits Bare ps us := by
  constructor
  · intro heq
    rw [← heq]
    exact h.layout us
  · exact h.eq_of_layout

end Reads

inductive Run (sep : α → Bool) : Piece α → List α → Prop
  | mk {lead body rest} : (∀ u ∈ lead, sep u = true) → body ≠ [] → (∀ u ∈ body, sep u = false) →
      (∀ u ∈ rest.head?, sep u = true) → Run sep ⟨lead, body, []⟩ rest

section Runs

variable {sep : α → Bool}

theorem runs_lead_append {lead : List α} (us : List α) (h : ∀ u ∈ lead, sep u = true) :
    runs (fun u => !sep u) (lead ++ us) = lead.foldr skip (runs (fun u => !sep u) us) := by
  induction lead with
  | nil => rfl
  | cons u lead ih =>
    rw [List.forall_mem_cons] at h
    simp [runs, h.1, ih h.2]

theorem foldr_skip_nil (lead : List α) : lead.foldr skip [] = [] := by
  induction lead with
  | nil => rfl
  | cons u lead ih => rw [List.foldr_cons, ih, skip]

theorem foldr_skip_cons (lead : List α) (p : Piece α) (ps : List (Piece α)) :
    lead.foldr skip (p :: ps) = ⟨lead ++ p.lead, p.body, p.close⟩ :: ps := by
  induction lead with
  | nil => rfl
  | cons u lead ih => rw [List.foldr_cons, ih, skip, List.cons_append]

theorem runs_of_forall {us : List α} (h : ∀ u ∈ us, sep u = true) :
    runs (fun u => !sep u) us = [] := by
  rw [← List.append_nil us, runs_lead_append [] h]
  exact foldr_skip_nil us

theorem runs_body_append {body rest : List α} (hne : body ≠ []) (h : ∀ u ∈ body, sep u = false)
    (hrest : ∀ u ∈ rest.head?, sep u = true) :
    runs (fun u => !sep u) (body ++ rest) = ⟨[], body, []⟩ :: runs (fun u => !sep u) rest := by
  induction body with
  | nil => exact absurd rfl hne
  | cons u body ih =>
    rw [List.forall_mem_cons] at h
    cases body with
    | cons v body =>
      rw [List.cons_append, runs, ih (List.cons_ne_nil v body) h.2]
      simp [h.1]
    | nil =>
      cases rest with
      | nil => simp [runs, h.1]
      | cons v rest =>
        have hv : sep v = true := hrest v rfl
        cases hscan : runs (fun u => !sep u) rest <;> simp [runs, h.1, hv, hscan, skip]

theorem Run.skip {u : α} {p : Piece α} {rest : List α} (hu : sep u = true) (h : Run sep p rest) :
    Run sep ⟨u :: p.lead, p.body, p.close⟩ rest := by
  cases h with
  | mk hlead hne hbody hrest => exact .mk (List.forall_mem_cons.2 ⟨hu, hlead⟩) hne hbody hrest

theorem Run.singleton {u : α} {rest : List α} (hu : sep u = false)
    (hrest : ∀ v ∈ rest.head?, sep v = true) : Run sep ⟨[], [u], []⟩ rest :=
  .mk (List.forall_mem_nil _) (List.cons_ne_nil u []) (List.forall_mem_singleton.2 hu) hrest

theorem Run.exists_cons {u : α} {p : Piece α} {rest : List α} (hu : sep u = false)
    (h : Run sep p rest) :
    ∃ q rest', Run sep q rest' ∧ u :: (p.units ++ rest) = q.units ++ rest' := by
  cases h with
  | @mk lead body _ hlead _ hbody hrest =>
    cases lead with
    | nil =>
      exact ⟨_, rest, .mk (List.forall_mem_nil _) (List.cons_ne_nil u body)
        (List.forall_mem_cons.2 ⟨hu, hbody⟩) hrest, rfl⟩
    | cons v lead =>
      refine ⟨_, _, .singleton hu ?_, rfl⟩
      intro w hw
      obtain rfl : v = w := Option.some.inj hw
      exact hlead v List.mem_cons_self

theorem exists_run (us : List α) :
    (∀ u ∈ us, sep u = true) ∨ ∃ p rest, Run sep p rest ∧ us = p.units ++ rest := by
  induction us with
  | nil => exact .inl (List.forall_mem_nil _)
  | cons u us ih =>
    cases hu : sep u with
    | true =>
      cases ih with
      | inl hb => exact .inl (List.forall_mem_cons.2 ⟨hu, hb⟩)
      | inr hsplit =>
        obtain ⟨p, rest, hp, rfl⟩ := hsplit
        exact .inr ⟨_, rest, hp.skip hu, rfl⟩
    | false =>
      right
      cases ih with
      | inl hb => exact ⟨_, us, .singleton hu fun v hv => hb v (List.mem_of_head? hv), rfl⟩
      | inr hsplit =>
        obtain ⟨p, rest, hp, rfl⟩ := hsplit
        exact hp.exists_cons hu

theorem reads_runs : Reads (runs fun u => !sep u) (Run sep) fun us => ∀ u ∈ us, sep u = true where
  bare := runs_of_forall
  step := by
    intro p us h
    cases h with
    | mk hlead hne hbody hrest =>
      rw [append_units, runs_lead_append _ hlead, List.nil_append, runs_body_append hne hbody hrest,
        foldr_skip_cons, List.append_nil]
  ne_nil := by
    intro p us h
    cases h with
    | mk _ hne => simp [units, hne]
  split := exists_run

end Runs

/-- Units up to the units that close them, or up to the end of the sequence. -/
inductive Terminated (sep : α → Bool) (Closes : List α → List α → Prop) : Piece α → List α → Prop
  | mk {body close rest} : (∀ u ∈ body, sep u = false) → Closes close rest →
      Terminated sep Closes ⟨[], body, close⟩ rest
  | last {body} : (∀ u ∈ body, sep u = false) → body ≠ [] →
      Terminated sep Closes ⟨[], body, []⟩ []

theorem foldr_extend_cons {body : List α} {p : Piece α} {ps : List (Piece α)} :
    body.foldr extend (p :: ps) = ⟨p.lead, body ++ p.body, p.close⟩ :: ps := by
  induction body with
  | nil => rfl
  | cons u body ih => rw [List.foldr_cons, ih, extend, List.cons_append]

theorem foldr_extend_nil {body : List α} (h : body ≠ []) :
    body.foldr extend [] = [⟨[], body, []⟩] := by
  cases body with
  | nil => exact absurd rfl h
  | cons u body =>
    induction body generalizing u with
    | nil => rfl
    | cons v body ih => rw [List.foldr_cons, ih v (List.cons_ne_nil v body), extend]

section Terminated

variable {sep : α → Bool} {Closes : List α → List α → Prop}

theorem Terminated.exists_cons {u : α} {p : Piece α} {rest : List α} (hu : sep u = false)
    (h : Terminated sep Closes p rest) :
    ∃ q, Terminated sep Closes q rest ∧ u :: (p.units ++ rest) = q.units ++ rest := by
  cases h with
  | mk hb hc => exact ⟨_, .mk (List.forall_mem_cons.2 ⟨hu, hb⟩) hc, rfl⟩
  | last hb => exact ⟨_, .last (List.forall_mem_cons.2 ⟨hu, hb⟩) (List.cons_ne_nil u _), rfl⟩

theorem exists_terminated
    (hsep : ∀ {u} us, sep u = true → ∃ close rest, Closes close rest ∧ u :: us = close ++ rest)
    (us : List α) : us = [] ∨ ∃ p rest, Terminated sep Closes p rest ∧ us = p.units ++ rest := by
  induction us with
  | nil => exact .inl rfl
  | cons u us ih =>
    right
    cases hu : sep u with
    | true =>
      obtain ⟨close, rest, hc, heq⟩ := hsep us hu
      exact ⟨_, rest, .mk (List.forall_mem_nil _) hc, heq⟩
    | false =>
      cases ih with
      | inl hb =>
        rw [hb]
        exact ⟨_, [], .last (List.forall_mem_singleton.2 hu) (List.cons_ne_nil u []), rfl⟩
      | inr hsplit =>
        obtain ⟨p, rest, hp, rfl⟩ := hsplit
        obtain ⟨q, hq, heq⟩ := hp.exists_cons hu
        exact ⟨q, rest, hq, heq⟩

theorem scan_body_append {scan : List α → List (Piece α)}
    (hbody : ∀ {u us}, sep u = false → scan (u :: us) = extend u (scan us)) {body : List α}
    (us : List α) (h : ∀ u ∈ body, sep u = false) :
    scan (body ++ us) = body.foldr extend (scan us) := by
  induction body with
  | nil => rfl
  | cons u body ih =>
    rw [List.forall_mem_cons] at h
    rw [List.cons_append, hbody h.1, ih h.2, List.foldr_cons]

theorem reads_terminated {scan : List α → List (Piece α)} (hnil : scan [] = [])
    (hbody : ∀ {u us}, sep u = false → scan (u :: us) = extend u (scan us))
    (hclose : ∀ {close us}, Closes close us → scan (close ++ us) = ⟨[], [], close⟩ :: scan us)
    (hne : ∀ {us}, ¬ Closes [] us)
    (hsep : ∀ {u} us, sep u = true → ∃ close rest, Closes close rest ∧ u :: us = close ++ rest) :
    Reads scan (Terminated sep Closes) (· = []) where
  bare := by
    rintro _ rfl
    exact hnil
  step := by
    intro p us h
    cases h with
    | mk hb hc =>
      rw [append_units, List.nil_append, scan_body_append hbody _ hb, hclose hc,
        foldr_extend_cons, List.append_nil]
    | last hb hne =>
      rw [append_units, List.nil_append, scan_body_append hbody _ hb, List.nil_append, hnil,
        foldr_extend_nil hne]
  ne_nil := by
    intro p us h
    cases h with
    | @mk body close _ _ hc =>
      have hclosed : close ≠ [] := by
        rintro rfl
        exact hne hc
      simp [units, hclosed]
    | last _ hne => simp [units, hne]
  split := exists_terminated hsep

end Terminated

theorem delimited_cons [DecidableEq α] {d u : α} (us : List α) (h : (u == d) = false) :
    delimited d (u :: us) = extend u (delimited d us) := by
  rw [delimited, if_neg (by simpa using h)]

theorem reads_delimited [DecidableEq α] (d : α) :
    Reads (delimited d) (Terminated (· == d) fun close _ => close = [d]) (· = []) := by
  apply reads_terminated
  · rfl
  · exact delimited_cons _
  · rintro _ us rfl
    simp [delimited]
  · simp
  · intro u us hu
    exact ⟨[d], us, rfl, by simpa using hu⟩

section Lines

variable [ChunkUnit α]

inductive LineEnd : List α → List α → Prop
  | pair {u v rest} : ChunkUnit.isReturn u = true → ChunkUnit.isFeed v = true →
      LineEnd [u, v] rest
  | single {u rest} : ChunkUnit.isLineBreak u = true →
      (ChunkUnit.isReturn u = true → ∀ v ∈ rest.head?, ChunkUnit.isFeed v = false) →
      LineEnd [u] rest

theorem lines_cons {u : α} (us : List α) (h : ChunkUnit.isLineBreak u = false) :
    lines (u :: us) = extend u (lines us) := by
  have hreturn : ChunkUnit.isReturn u = false := by
    cases hr : ChunkUnit.isReturn u with
    | false => rfl
    | true => simp [ChunkUnit.isLineBreak_of_isReturn u hr] at h
  cases us <;> simp [lines, h, hreturn, extend]

theorem lines_append {close us : List α} (h : LineEnd close us) :
    lines (close ++ us) = ⟨[], [], close⟩ :: lines us := by
  cases h with
  | pair hu hv => simp [lines, hu, hv]
  | @single u _ hu hpair =>
    cases us with
    | nil => simp [lines, hu]
    | cons v us =>
      cases hr : ChunkUnit.isReturn u with
      | false => simp [lines, hu, hr]
      | true => simp [lines, hu, hpair hr v rfl]

theorem exists_lineEnd {u : α} (us : List α) (h : ChunkUnit.isLineBreak u = true) :
    ∃ close rest, LineEnd close rest ∧ u :: us = close ++ rest := by
  by_cases hpair : ChunkUnit.isReturn u = true ∧ ∃ v ∈ us.head?, ChunkUnit.isFeed v = true
  · obtain ⟨hu, v, hv, hfeed⟩ := hpair
    obtain ⟨rest, rfl⟩ := List.head?_eq_some_iff.1 hv
    exact ⟨[u, v], rest, .pair hu hfeed, rfl⟩
  · refine ⟨[u], us, .single h ?_, rfl⟩
    intro hu v hv
    exact Bool.eq_false_iff.2 fun hfeed => hpair ⟨hu, v, hv, hfeed⟩

theorem reads_lines :
    Reads lines (Terminated (ChunkUnit.isLineBreak (α := α)) LineEnd) (· = []) := by
  apply reads_terminated
  · rfl
  · exact lines_cons _
  · exact lines_append
  · intro us h
    cases h
  · exact exists_lineEnd

end Lines

end ScriptValue.Piece
