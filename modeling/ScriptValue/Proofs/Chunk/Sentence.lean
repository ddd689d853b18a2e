import ScriptValue.Proofs.Chunk.Layout

namespace ScriptValue.Piece

variable {α : Type} [ChunkUnit α]

def Unended : List α → List α → Prop
  | [], _ => True
  | u :: us, rest => endsSentence u (us ++ rest) = false ∧ Unended us rest

/--
Blanks, and then units up to the end of a sentence, or up to the last unit of the sequence that is
not blank.
-/
inductive Sentence : Piece α → List α → Prop
  | mk {lead body u rest} : (∀ v ∈ lead, ChunkUnit.isBlank v = true) →
      (∀ v ∈ body.head?, ChunkUnit.isBlank v = false) → Unended body [u] →
      ChunkUnit.isBlank u = false →
      (endsSentence u rest = true ∨ ∀ v ∈ rest, ChunkUnit.isBlank v = true) →
      Sentence ⟨lead, body ++ [u], []⟩ rest

theorem endsSentence_append {u v : α} {us : List α} (rest rest' : List α) :
    endsSentence u (us ++ v :: rest) = endsSentence u (us ++ v :: rest') := by
  cases us <;> rfl

theorem endsSentence_of_isBlank {u : α} (rest : List α) (h : ChunkUnit.isBlank u = true) :
    endsSentence u rest = false := by
  cases he : ChunkUnit.isSentenceEnd u with
  | false => simp [endsSentence, he]
  | true => simp [ChunkUnit.isBlank_of_isSentenceEnd u he] at h

theorem unended_append {us vs rest : List α} :
    Unended (us ++ vs) rest ↔ Unended us (vs ++ rest) ∧ Unended vs rest := by
  induction us with
  | nil => simp [Unended]
  | cons u us ih => simp [Unended, ih, and_assoc]

theorem unended_of_forall {us : List α} (rest : List α)
    (h : ∀ u ∈ us, ChunkUnit.isBlank u = true) : Unended us rest := by
  induction us with
  | nil => trivial
  | cons u us ih =>
    rw [List.forall_mem_cons] at h
    exact ⟨endsSentence_of_isBlank _ h.1, ih h.2⟩

theorem Sentence.singleton {u : α} {rest : List α} (hu : ChunkUnit.isBlank u = false)
    (h : endsSentence u rest = true ∨ ∀ v ∈ rest, ChunkUnit.isBlank v = true) :
    Sentence ⟨[], [u], []⟩ rest :=
  @Sentence.mk α _ [] [] u rest (List.forall_mem_nil _) (by simp) trivial hu h

theorem sentences_cons_of_isBlank {u : α} (us : List α) (h : ChunkUnit.isBlank u = true) :
    sentences (u :: us) = skip u (sentences us) := by
  simp [sentences, sentencesFrom, h]

theorem sentences_lead_append {lead : List α} (us : List α)
    (h : ∀ u ∈ lead, ChunkUnit.isBlank u = true) :
    sentences (lead ++ us) = lead.foldr skip (sentences us) := by
  induction lead with
  | nil => rfl
  | cons u lead ih =>
    rw [List.forall_mem_cons] at h
    rw [List.cons_append, sentences_cons_of_isBlank _ h.1, ih h.2, List.foldr_cons]

theorem sentences_of_forall {us : List α} (h : ∀ u ∈ us, ChunkUnit.isBlank u = true) :
    sentences us = [] := by
  rw [← List.append_nil us, sentences_lead_append [] h]
  exact foldr_skip_nil us

theorem sentences_cons_of_not_isBlank {u : α} (us : List α) (h : ChunkUnit.isBlank u = false) :
    sentences (u :: us) =
      ⟨[], (sentencesFrom true (u :: us)).1, []⟩ :: (sentencesFrom true (u :: us)).2 := by
  simp [sentences, sentencesFrom, h]

theorem sentencesFrom_of_forall {us : List α} (h : ∀ u ∈ us, ChunkUnit.isBlank u = true) :
    sentencesFrom true us = ([], []) := by
  induction us with
  | nil => rfl
  | cons u us ih =>
    rw [List.forall_mem_cons] at h
    simp [sentencesFrom, endsSentence_of_isBlank us h.1, ih h.2, h.1]

theorem sentencesFrom_of_ends {u : α} {us : List α} (h : endsSentence u us = true) :
    sentencesFrom true (u :: us) = ([u], sentences us) := by
  simp [sentencesFrom, h, sentences]

theorem sentencesFrom_of_not_ends {u : α} {us : List α} (h : endsSentence u us = false)
    (hu : ChunkUnit.isBlank u = false ∨ (sentencesFrom true us).1 ≠ []) :
    sentencesFrom true (u :: us) =
      (u :: (sentencesFrom true us).1, (sentencesFrom true us).2) := by
  cases hu with
  | inl hu => simp [sentencesFrom, h, hu]
  | inr hu => simp [sentencesFrom, h, hu]

theorem sentencesFrom_last {u : α} {us : List α} (hu : ChunkUnit.isBlank u = false)
    (h : endsSentence u us = true ∨ ∀ v ∈ us, ChunkUnit.isBlank v = true) :
    sentencesFrom true (u :: us) = ([u], sentences us) := by
  cases he : endsSentence u us with
  | true => exact sentencesFrom_of_ends he
  | false =>
    have hblank : ∀ v ∈ us, ChunkUnit.isBlank v = true := h.resolve_left (by simp [he])
    rw [sentencesFrom_of_not_ends he (.inl hu), sentencesFrom_of_forall hblank,
      sentences_of_forall hblank]

theorem sentencesFrom_append {body : List α} {u : α} {us : List α} (hbody : Unended body [u])
    (hu : ChunkUnit.isBlank u = false)
    (h : endsSentence u us = true ∨ ∀ v ∈ us, ChunkUnit.isBlank v = true) :
    sentencesFrom true (body ++ u :: us) = (body ++ [u], sentences us) := by
  induction body with
  | nil => exact sentencesFrom_last hu h
  | cons v body ih =>
    have hv : endsSentence v (body ++ u :: us) = false :=
      (endsSentence_append us []).trans hbody.1
    have hrest := ih hbody.2
    rw [List.cons_append, sentencesFrom_of_not_ends hv (.inr (by simp [hrest])), hrest,
      List.cons_append]

theorem sentences_append {body : List α} {u : α} {us : List α}
    (hhead : ∀ v ∈ body.head?, ChunkUnit.isBlank v = false) (hbody : Unended body [u])
    (hu : ChunkUnit.isBlank u = false)
    (h : endsSentence u us = true ∨ ∀ v ∈ us, ChunkUnit.isBlank v = true) :
    sentences (body ++ u :: us) = ⟨[], body ++ [u], []⟩ :: sentences us := by
  have hscan := sentencesFrom_append hbody hu h
  cases body with
  | nil =>
    rw [List.nil_append] at hscan
    rw [List.nil_append, sentences_cons_of_not_isBlank us hu, hscan]
  | cons v body =>
    rw [List.cons_append, sentences_cons_of_not_isBlank _ (hhead v rfl), ← List.cons_append, hscan]

theorem Sentence.skip {u : α} {p : Piece α} {rest : List α} (hu : ChunkUnit.isBlank u = true)
    (h : Sentence p rest) : Sentence ⟨u :: p.lead, p.body, p.close⟩ rest := by
  cases h with
  | mk hlead hhead hbody hv hend =>
    exact .mk (List.forall_mem_cons.2 ⟨hu, hlead⟩) hhead hbody hv hend

theorem Sentence.exists_cons {u : α} {p : Piece α} {rest : List α}
    (hu : ChunkUnit.isBlank u = false) (hopen : endsSentence u (p.units ++ rest) = false)
    (h : Sentence p rest) :
    ∃ q, Sentence q rest ∧ u :: (p.units ++ rest) = q.units ++ rest := by
  cases h with
  | @mk lead body v _ hlead _ hbody hv hend =>
    -- the blanks in front of what follows are inside of the sentence that `u` starts
    have hunended : Unended (u :: (lead ++ body)) [v] := by
      refine ⟨?_, unended_append.2 ⟨unended_of_forall _ hlead, hbody⟩⟩
      rw [← hopen, append_units, ← List.append_assoc]
      simp [endsSentence]
    have hhead : ∀ w ∈ (u :: (lead ++ body)).head?, ChunkUnit.isBlank w = false := by
      intro w hw
      exact Option.some.inj hw ▸ hu
    exact ⟨_, .mk (List.forall_mem_nil _) hhead hunended hv hend, by simp [units]⟩

theorem exists_sentence (us : List α) :
    (∀ u ∈ us, ChunkUnit.isBlank u = true) ∨
      ∃ p rest, Sentence p rest ∧ us = p.units ++ rest := by
  induction us with
  | nil => exact .inl (List.forall_mem_nil _)
  | cons u us ih =>
    cases hu : ChunkUnit.isBlank u with
    | true =>
      cases ih with
      | inl hb => exact .inl (List.forall_mem_cons.2 ⟨hu, hb⟩)
      | inr hsplit =>
        obtain ⟨p, rest, hp, rfl⟩ := hsplit
        exact .inr ⟨_, rest, hp.skip hu, rfl⟩
    | false =>
      right
      cases he : endsSentence u us with
      | true => exact ⟨_, us, .singleton hu (.inl he), rfl⟩
      | false =>
        cases ih with
        | inl hb => exact ⟨_, us, .singleton hu (.inr hb), rfl⟩
        | inr hsplit =>
          obtain ⟨p, rest, hp, rfl⟩ := hsplit
          obtain ⟨q, hq, heq⟩ := hp.exists_cons hu he
          exact ⟨q, rest, hq, heq⟩

theorem reads_sentences :
    Reads sentences (Sentence (α := α)) fun us => ∀ u ∈ us, ChunkUnit.isBlank u = true where
  bare := sentences_of_forall
  step := by
    intro p us h
    cases h with
    | mk hlead hhead hbody hu hend =>
      rw [append_units, List.append_assoc, List.singleton_append, List.nil_append,
        sentences_lead_append _ hlead, sentences_append hhead hbody hu hend, foldr_skip_cons,
        List.append_nil]
  ne_nil := by
    intro p us h
    cases h with
    | mk => simp [units]
  split := exists_sentence

end ScriptValue.Piece
