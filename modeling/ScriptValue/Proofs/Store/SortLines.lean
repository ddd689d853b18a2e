import ScriptValue.Proofs.Chunk.Rejoin
import ScriptValue.Proofs.Store.Sorting

namespace ScriptValue

theorem unbroken_of_mem_lines {d : Delimiters} {t l : Text} (h : l ∈ chunks .line d t) :
    ∀ c ∈ l, ChunkUnit.isLineBreak c = false := by
  have hsep : ∀ c ∈ l, Piece.separates .line d c = false := Piece.sep_of_mem_chunks rfl h
  exact hsep

section

variable [DateLibrary]

theorem SortKey.keyOf_text_congr {ctx ctx' : Context} (h : ctx.config = ctx'.config)
    (style : SortStyle) (t : Text) : keyOf ctx style (.text t) = keyOf ctx' style (.text t) := by
  have hconvert {α : Type} (T : Target α) : ctx.convert T (.text t) = ctx'.convert T (.text t) := by
    change ctx.outer.convertWhole T (.text t) = ctx'.outer.convertWhole T (.text t)
    simp only [Access.convertWhole, Access.textOf, Context.config_outer, h]
  cases style with
  | text => rfl
  | numeric => simp only [keyOf, ofValue, hconvert]
  | dateTime => simp only [keyOf, ofValue, hconvert]

namespace Store

theorem arranged_text (ctx : Context) (arrange : Arrangement) (t : Text) :
    arranged ctx @arrange (.text t) = (do
      let lines ← arrange .text (chunks .line ctx.config.delimiters t)
      return .text (ctx.config.lineEnding.text.intercalate lines)) := rfl

def sortedLines (s : Store) (style : SortStyle) (direction : SortDirection) (t : Text) :
    List Text :=
  sortedByKey s.context style direction .text (chunks .line s.config.delimiters t)

variable {s s' : Store} {name t : Text} (style : SortStyle) (direction : SortDirection)

theorem sort_eq_of_text (hkind : s.kind? name = some .text) (hget : s.get? name = some (.text t)) :
    s.sort name style direction = .ok (s.put name .text
      (.text (s.config.lineEnding.text.intercalate (s.sortedLines style direction t)))) := by
  have hplain : ∀ l ∈ chunks .line s.config.delimiters t, (Value.text l).Plain :=
    fun l _ => .text l
  rw [sort_of_get? hget rfl, arranged_text, config_context, byKey_eq .text hplain]
  exact set_of_kind hkind

variable [Std.TransOrd DateLibrary.Moment]

theorem stablySorted_sortedLines (s : Store) (t : Text) :
    StablySorted (fun l m => SortKey.MayPrecede direction
        (SortKey.keyOf s.context style (.text l)) (SortKey.keyOf s.context style (.text m)))
      (chunks .line s.config.delimiters t) (s.sortedLines style direction t) :=
  stablySorted_sortedByKey .text s.context style direction _

theorem chunks_intercalate_sortedLines (s : Store) (t : Text) :
    chunks .line s.config.delimiters
        (s.config.lineEnding.text.intercalate (s.sortedLines style direction t)) =
      rejoined (s.sortedLines style direction t) := by
  have hperm := (stablySorted_sortedLines style direction s t).perm
  exact chunks_intercalate _ _ fun _ hl => unbroken_of_mem_lines (hperm.mem_iff.1 hl)

theorem sortedLines_of_chunks_eq (hconfig : s'.config = s.config) {u : Text}
    (hu : chunks .line s.config.delimiters u = rejoined (s.sortedLines style direction t)) :
    s'.sortedLines style direction u = rejoined (s.sortedLines style direction t) := by
  have hkey (l : Text) :
      SortKey.keyOf s'.context style (.text l) = SortKey.keyOf s.context style (.text l) :=
    SortKey.keyOf_text_congr hconfig style l
  rw [sortedLines, hconfig, hu]
  simp only [sortedByKey, hkey]
  exact sortedByKey_of_sublist .text (rejoined_sublist _)

theorem sort_sortedLines (hkind : s.kind? name = some .text) (t : Text) :
    (s.put name .text (.text (s.config.lineEnding.text.intercalate
        (s.sortedLines style direction t)))).sort name style direction =
      .ok (s.put name .text (.text (s.config.lineEnding.text.intercalate
        (rejoined (s.sortedLines style direction t))))) := by
  obtain ⟨slot, hslot⟩ := exists_slot? hkind
  have hchunks := chunks_intercalate_sortedLines style direction s t
  rw [sort_eq_of_text style direction ((kind?_put hslot ..).trans hkind) (get?_put hslot ..),
    sortedLines_of_chunks_eq style direction (config_put ..) hchunks, config_put, put_put]

/--
Sorting a text puts its lines in order, in a stable way. The lines of the new text are those lines
unless the last of them is empty, which is lost; and then a text of two lines or more is another one
when it is sorted again.
-/
theorem sort_lines (hkind : s.kind? name = some .text) (hget : s.get? name = some (.text t)) :
    let key (l : Text) := SortKey.keyOf s.context style (.text l)
    let sorted := s.sortedLines style direction t
    let t' := s.config.lineEnding.text.intercalate sorted
    ∃ s', s.sort name style direction = .ok s' ∧ s'.get? name = some (.text t') ∧
      (∀ l, SortKey.ofValue s.context style (.text l) = .ok (key l)) ∧
      StablySorted (fun l m => SortKey.MayPrecede direction (key l) (key m))
        (chunks .line s.config.delimiters t) sorted ∧
      chunks .line s.config.delimiters t' = rejoined sorted ∧
      (chunks .line s.config.delimiters t' = sorted ↔ sorted.getLast? ≠ some []) ∧
      (s'.sort name style direction = .ok s' ↔
        sorted.getLast? ≠ some [] ∨ sorted.length ≤ 1) := by
  intro key sorted t'
  have hchunks : chunks .line s.config.delimiters t' = rejoined sorted :=
    chunks_intercalate_sortedLines style direction s t
  refine ⟨_, sort_eq_of_text style direction hkind hget, get?_put_self ..,
    fun l => SortKey.ofValue_eq_ok (.text l), stablySorted_sortedLines style direction s t,
    hchunks, ?_, ?_⟩
  · rw [hchunks, rejoined_eq_self_iff]
  · -- the lines that are found then are in order, so to sort them puts just them together
    rw [sort_sortedLines style direction hkind t,
      ← intercalate_rejoined_eq_iff s.config.lineEnding.breaks.ne_nil]
    constructor
    · intro heq
      exact Value.text.inj (put_inj (Except.ok.inj heq))
    · intro heq
      rw [heq]

end Store

end

namespace Store

theorem sort_lines_numeric :
    let t : Text := ['2', '\n', '1']
    let s : Store := ⟨[(['x'], ⟨['x'], .text, .text t⟩)], [], .standard⟩
    s.kind? ['x'] = some .text ∧ s.get? ['x'] = some (.text t) ∧
      ∃ s', s.sort ['x'] .numeric .ascending = .ok s' ∧
        s'.get? ['x'] = some (.text ['1', '\n', '2']) ∧
        chunks .line s.config.delimiters ['1', '\n', '2'] = [['1'], ['2']] ∧
        s'.sort ['x'] .numeric .ascending = .ok s' := by
  intro t s
  have hlower : Text.lower ['x'] = ['x'] := by decide +kernel
  have hslot := slot?_singleton hlower .text (.text t) .standard
  have hkind : s.kind? ['x'] = some .text := congrArg (Option.map Slot.kind) hslot
  have hget : s.get? ['x'] = some (.text t) := congrArg (Option.map Slot.value) hslot
  have hsorted : s.sortedLines .numeric .ascending t = [['1'], ['2']] := sortBy_pair _ _ _
  obtain ⟨s', hsort, hget', -, -, hchunks, -, hagain⟩ :=
    sort_lines .numeric .ascending hkind hget
  rw [hsorted] at hget' hchunks hagain
  exact ⟨hkind, hget, s', hsort, hget', hchunks, hagain.2 (.inl (by decide))⟩

theorem sort_loses_empty_line :
    let t : Text := ['\n', '1']
    let s : Store := ⟨[(['x'], ⟨['x'], .text, .text t⟩)], [], .standard⟩
    s.kind? ['x'] = some .text ∧ s.get? ['x'] = some (.text t) ∧
      chunks .line s.config.delimiters t = [[], ['1']] ∧
      ∃ s' t', s.sort ['x'] .numeric .ascending = .ok s' ∧ s'.get? ['x'] = some (.text t') ∧
        chunks .line s.config.delimiters t' = [['1']] ∧
        s'.sort ['x'] .numeric .ascending ≠ .ok s' := by
  intro t s
  have hlower : Text.lower ['x'] = ['x'] := by decide +kernel
  have hslot := slot?_singleton hlower .text (.text t) .standard
  have hkind : s.kind? ['x'] = some .text := congrArg (Option.map Slot.kind) hslot
  have hget : s.get? ['x'] = some (.text t) := congrArg (Option.map Slot.value) hslot
  have hsorted : s.sortedLines .numeric .ascending t = [['1'], []] := sortBy_pair _ _ _
  have hsort := sort_eq_of_text .numeric .ascending hkind hget
  have hagain := sort_sortedLines .numeric .ascending hkind t
  rw [hsorted] at hsort hagain
  refine ⟨hkind, hget, rfl, _, ['1', '\n'], hsort, get?_put_self .., rfl, fun heq => ?_⟩
  have htext : ['1'] = ['1', '\n'] :=
    Value.text.inj (put_inj (Except.ok.inj (hagain.symm.trans heq)))
  cases htext

end Store

end ScriptValue
