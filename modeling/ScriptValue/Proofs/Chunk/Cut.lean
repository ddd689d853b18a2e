import ScriptValue.Proofs.Chunk.Sentence

namespace ScriptValue.Piece

variable {α : Type}

inductive Single : Piece α → List α → Prop
  | mk (u rest) : Single ⟨[], [u], []⟩ rest

inductive Whole : Piece α → List α → Prop
  | mk {body} : body ≠ [] → Whole ⟨[], body, []⟩ []

theorem reads_characters :
    Reads (fun us : List α => us.map fun u => ⟨[], [u], []⟩) Single (· = []) where
  bare := by
    rintro _ rfl
    rfl
  step := by
    intro p us h
    cases h with
    | mk => rfl
  ne_nil := by
    intro p us h
    cases h with
    | mk => simp [units]
  split := by
    intro us
    cases us with
    | nil => exact .inl rfl
    | cons u us => exact .inr ⟨_, us, .mk u us, rfl⟩

theorem undelimited_of_ne_nil {us : List α} (h : us ≠ []) : undelimited us = [⟨[], us, []⟩] := by
  cases us with
  | nil => exact absurd rfl h
  | cons u us => rfl

theorem reads_undelimited : Reads undelimited (Whole (α := α)) (· = []) where
  bare := by
    rintro _ rfl
    rfl
  step := by
    intro p us h
    cases h with
    | mk hne =>
      rw [append_units, List.nil_append, List.append_nil, List.append_nil,
        undelimited_of_ne_nil hne, undelimited]
  ne_nil := by
    intro p us h
    cases h with
    | mk hne => simp [units, hne]
  split := by
    intro us
    cases us with
    | nil => exact .inl rfl
    | cons u us => exact .inr ⟨_, [], .mk (List.cons_ne_nil u us), by simp [units]⟩

section Kinds

variable [ChunkUnit α]

def Bare (kind : ChunkKind) (us : List α) : Prop :=
  match kind with
  | .word | .sentence => ∀ u ∈ us, ChunkUnit.isBlank u = true
  | .paragraph => ∀ u ∈ us, ChunkUnit.isLineBreak u = true
  | _ => us = []

theorem bare_nil (kind : ChunkKind) : Bare kind ([] : List α) := by
  cases kind <;> simp [Bare]

theorem bare_of_isDelimited {kind : ChunkKind} (hkind : kind.isDelimited = true) :
    Bare kind = fun us : List α => us = [] := by
  funext us
  cases kind <;> simp_all [ChunkKind.isDelimited, Bare]

variable [DecidableEq α]

def Fits (kind : ChunkKind) (d : Delimiters) : Piece α → List α → Prop :=
  match kind with
  | .character => Single
  | .word => Run ChunkUnit.isBlank
  | .sentence => Sentence
  | .paragraph => Run ChunkUnit.isLineBreak
  | .line => Terminated ChunkUnit.isLineBreak LineEnd
  | .item | .column | .row =>
    match separator? kind d with
    | some u => Terminated (· == u) fun close _ => close = [u]
    | none => Whole

section Delimited

variable {kind : ChunkKind} {d : Delimiters} (hkind : kind.isDelimited = true)

include hkind

theorem cut_of_some {u : α} (h : separator? kind d = some u) : cut kind d = delimited u := by
  funext us
  cases kind <;> simp_all [ChunkKind.isDelimited, cut]

theorem cut_of_none (h : separator? kind d = (none : Option α)) :
    cut kind d = undelimited (α := α) := by
  funext us
  cases kind <;> simp_all [ChunkKind.isDelimited, cut]

theorem fits_of_some {u : α} (h : separator? kind d = some u) :
    Fits kind d = Terminated (· == u) fun close _ => close = [u] := by
  cases kind <;> simp_all [ChunkKind.isDelimited, Fits]

theorem fits_of_none (h : separator? kind d = (none : Option α)) :
    Fits kind d = Whole (α := α) := by
  cases kind <;> simp_all [ChunkKind.isDelimited, Fits]

theorem reads_cut_of_isDelimited : Reads (cut (α := α) kind d) (Fits kind d) (Bare kind) := by
  rw [bare_of_isDelimited hkind]
  cases h : (separator? kind d : Option α) with
  | some u =>
    rw [cut_of_some hkind h, fits_of_some hkind h]
    exact reads_delimited u
  | none =>
    rw [cut_of_none hkind h, fits_of_none hkind h]
    exact reads_undelimited

end Delimited

theorem reads_cut (kind : ChunkKind) (d : Delimiters) :
    Reads (cut (α := α) kind d) (Fits kind d) (Bare kind) := by
  cases kind with
  | character => exact reads_characters
  | word => exact reads_runs
  | sentence => exact reads_sentences
  | paragraph => exact reads_runs
  | line => exact reads_lines
  | item => exact reads_cut_of_isDelimited rfl
  | column => exact reads_cut_of_isDelimited rfl
  | row => exact reads_cut_of_isDelimited rfl

theorem cut_eq_iff {kind : ChunkKind} {d : Delimiters} {us : List α} {ps : List (Piece α)} :
    cut kind d us = ps ↔ Layout (Fits kind d) (Bare kind) ps us :=
  (reads_cut kind d).eq_iff

end Kinds

end ScriptValue.Piece
