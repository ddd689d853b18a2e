import ScriptValue.Date.Reader
import ScriptValue.Proofs.Chunk.Nested
import ScriptValue.Proofs.Coercion.Kinds
import ScriptValue.Proofs.Coercion.Reading
import ScriptValue.Proofs.Store.Slots
import ScriptValue.Store.Container

namespace ScriptValue

section

variable [DateLibrary]

/-- A part of a part of a variable, and so on; the last address is for a part of the variable. -/
def Value.chain (name : Text) : List Address → Value
  | [] => .variable name
  | address :: addresses => .part (chain name addresses) address

theorem Value.kind_chain (name : Text) (addresses : List Address) :
    (chain name addresses).kind = .container := by
  cases addresses <;> rfl

abbrev Value.chunkChain (name : Text) (specs : List ChunkSpec) : Value :=
  chain name (specs.map .chunk)

namespace Access

theorem readPart_text (a : Access) (spec : ChunkSpec) (t : Text) :
    a.readPart (.text t) (.chunk spec) = .ok (.text (extract a.config.delimiters spec t)) := rfl

theorem currentParent_variable {a : Access} {name : Text} {v : Value}
    (h : a.context.lookup? name = some v) : a.currentParent (.variable name) = a.resolve v := by
  rw [currentParent, h]

theorem written_text {a : Access} {parent v : Value} {t r : Text}
    (hparent : a.currentParent parent = .ok (.text t)) (hv : a.textOf v = .ok r)
    (spec : ChunkSpec) (p : Preposition) :
    a.written parent (.chunk spec) v p = .ok (.text (splice a.config.delimiters spec p r t)) := by
  rw [written, hparent]
  change (a.textOf v >>= fun r =>
    Except.ok (Value.text (splice a.config.delimiters spec p r t))) = _
  rw [hv]
  rfl

end Access

namespace Context

variable {ctx : Context} {name t : Text} {specs : List ChunkSpec} {n : Nat}

theorem read_chunk {parent : Value} {t : Text}
    (h : (ctx.access n).resolve parent = .ok (.text t)) (spec : ChunkSpec) :
    (ctx.access (n + 1)).read (.part parent (.chunk spec)) =
      .ok (.text (extract ctx.config.delimiters spec t)) := by
  rw [read_part, h]
  change (ctx.access n).readPart (.text t) (.chunk spec) = _
  rw [Access.readPart_text, config_access]

variable (h : ctx.lookup? name = some (.text t))

include h

theorem resolve_chunkChain (hn : specs.length ≤ n) :
    (ctx.access n).resolve (.chunkChain name specs) =
      .ok (.text (Nested.meant ctx.config.delimiters t specs)) := by
  induction specs generalizing n with
  | nil =>
    refine Access.resolve_of_read rfl ?_ rfl
    rw [read_variable, h]
    rfl
  | cons spec specs ih =>
    cases n with
    | zero => cases hn
    | succ n =>
      -- the parent is read on the level below
      exact Access.resolve_of_read rfl (read_chunk (ih (Nat.le_of_succ_le_succ hn)) spec) rfl

theorem currentParent_chunkChain (hn : specs.length ≤ n) :
    (ctx.access n).currentParent (.chunkChain name specs) =
      .ok (.text (Nested.meant ctx.config.delimiters t specs)) := by
  cases specs with
  | nil =>
    have hlookup : (ctx.access n).context.lookup? name = some (.text t) := by
      rw [context_access, h]
    exact (Access.currentParent_variable hlookup).trans (Access.resolve_of_none _ rfl)
  | cons spec specs => exact resolve_chunkChain h hn

theorem value_chunkChain (hne : specs ≠ []) (hn : specs.length ≤ maxDepth) :
    ctx.value (.chunkChain name specs) =
      .ok (.text (Nested.meant ctx.config.delimiters t specs)) := by
  cases specs with
  | nil => exact absurd rfl hne
  | cons spec specs => exact read_chunk (resolve_chunkChain h (Nat.le_of_succ_le_succ hn)) spec

end Context

namespace Store

variable {s : Store} {name t r : Text} {v : Value} {specs : List ChunkSpec}

theorem write_part {parent updated : Value} {address : Address} {p : Preposition}
    (h : s.context.within.written parent address v p = .ok updated)
    (hparent : parent.kind = .container) :
    s.write (.part parent address) v p = s.write parent updated .into := by
  rw [write, h]
  exact if_pos hparent

theorem set_of_kind (hkind : s.kind? name = some v.kind) :
    s.set name v = .ok (s.put name v.kind v) := by
  have hkindFor : s.kindFor name = v.kind := by rw [kindFor, hkind, Option.getD_some]
  rw [set, hkindFor, Context.convertTo_kind]
  rfl

theorem exists_slot? {kind : Kind} (h : s.kind? name = some kind) :
    ∃ slot, s.slot? name = some slot :=
  (Option.map_eq_some_iff.1 h).imp fun _ hslot => hslot.1

section Chains

variable (ht : s.get? name = some (.text t))

include ht

theorem write_chunkChain_cons {spec : ChunkSpec} (hn : specs.length < maxDepth)
    (hv : s.context.within.textOf v = .ok r) :
    s.write (.chunkChain name (spec :: specs)) v .into =
      s.write (.chunkChain name specs)
        (.text (splice s.config.delimiters spec .into r (Nested.meant s.config.delimiters t specs)))
        .into := by
  -- the write takes a level itself, and the outer chunks are read on those that are left
  have hparent : s.context.within.currentParent (.chunkChain name specs) =
      .ok (.text (Nested.meant s.config.delimiters t specs)) := by
    have hlookup : s.context.lookup? name = some (.text t) := ht
    exact Context.currentParent_chunkChain hlookup (Nat.le_pred_of_lt hn)
  have hconfig : s.context.within.config = s.config := Context.config_access _ _
  have hwritten := Access.written_text hparent hv spec .into
  rw [hconfig] at hwritten
  exact write_part hwritten (Value.kind_chain name _)

variable (hkind : s.kind? name = some .text)

include hkind

theorem write_chunkChain_text (hn : specs.length ≤ maxDepth)
    (h : Nested.Addressed s.config.delimiters t specs) (u : Text) :
    s.write (.chunkChain name specs) (.text u) .into =
      .ok (s.put name .text (.text (Nested.written s.config.delimiters t u specs))) := by
  induction specs generalizing u with
  | nil =>
    rw [Nested.written_nil]
    exact set_of_kind hkind
  | cons spec specs ih =>
    rw [write_chunkChain_cons ht hn rfl, ih (Nat.le_of_succ_le hn) h.2, Nested.written_cons h]

theorem write_chunkChain (hne : specs ≠ []) (hn : specs.length ≤ maxDepth)
    (h : Nested.Addressed s.config.delimiters t specs) (hv : s.context.within.textOf v = .ok r) :
    s.write (.chunkChain name specs) v .into =
      .ok (s.put name .text (.text (Nested.written s.config.delimiters t r specs))) := by
  cases specs with
  | nil => exact absurd rfl hne
  | cons spec specs =>
    rw [write_chunkChain_cons ht hn hv,
      write_chunkChain_text ht hkind (Nat.le_of_succ_le hn) h.2, Nested.written_cons h]

omit ht hkind in
theorem value_of_written {s' : Store} (hconfig : s'.config = s.config)
    (hget : s'.get? name = some (.text (Nested.written s.config.delimiters t r specs)))
    (hne : specs ≠ []) (hn : specs.length ≤ maxDepth)
    (h : Nested.Addressed s.config.delimiters t specs)
    (hspecs : ∀ spec ∈ specs, spec.IsSingle ∧ spec.kind.isSeparated = true)
    (hr : ∀ spec ∈ specs, Piece.Unbroken (Piece.separates spec.kind s.config.delimiters) r) :
    s'.context.value (.chunkChain name specs) = .ok (.text r) := by
  have hlookup : s'.context.lookup? name =
      some (.text (Nested.written s.config.delimiters t r specs)) := hget
  have hconfig' : s'.context.config = s.config := hconfig
  rw [Context.value_chunkChain hlookup hne hn, hconfig', Nested.meant_written hspecs h hr]

/--
A value that is written to a chunk of a chunk of a text variable, and so on, goes into the text as
one splice; and where each spec is for one chunk, and the text written is one chunk of each kind, it
is what is read there then. The text of a value is its own if there are no containers in it, and
else what is read on the levels that a write leaves.
-/
theorem splice_chunkChain (hne : specs ≠ []) (hn : specs.length < maxDepth)
    (h : Nested.Addressed s.config.delimiters t specs)
    (hv : v.Plain ∧ s.context.text v = .ok r ∨ s.context.within.textOf v = .ok r) :
    let c := Nested.span s.config.delimiters t specs
    ∃ s', s.write (.chunkChain name specs) v .into = .ok s' ∧
      s'.get? name = some (.text (t.take c.start ++ r ++ t.drop c.stop)) ∧
      ((∀ spec ∈ specs, spec.IsSingle ∧ spec.kind.isSeparated = true) →
        (∀ spec ∈ specs, Piece.Unbroken (Piece.separates spec.kind s.config.delimiters) r) →
        s'.context.value (.chunkChain name specs) = .ok (.text r)) := by
  intro c
  have hr : s.context.within.textOf v = .ok r := by
    cases hv with
    | inl hv => rw [s.context.textOf_within hv.1, hv.2]
    | inr hv => exact hv
  obtain ⟨slot, hslot⟩ := exists_slot? hkind
  have hget := get?_put hslot .text (.text (Nested.written s.config.delimiters t r specs))
  have hn := Nat.le_of_lt hn
  refine ⟨_, write_chunkChain ht hkind hne hn h hr, hget, ?_⟩
  intro hspecs hunbroken
  exact value_of_written (config_put ..) hget hne hn h hspecs hunbroken

end Chains

end Store

end

namespace Store

theorem splice_chunkChain_word :
    let t : Text := ['a', ',', 'b', ' ', 'c', '\n', 'd']
    let s : Store := ⟨[(['x'], ⟨['x'], .text, .text t⟩)], [], .standard⟩
    let specs : List ChunkSpec :=
      [⟨.word, .nth 2, none⟩, ⟨.item, .nth 2, none⟩, ⟨.line, .nth 1, none⟩]
    s.kind? ['x'] = some .text ∧ s.get? ['x'] = some (.text t) ∧ specs ≠ [] ∧
      specs.length < maxDepth ∧ Nested.Addressed s.config.delimiters t specs ∧
      (Value.text ['z']).Plain ∧ s.context.text (.text ['z']) = .ok ['z'] ∧
      ∃ s', s.write (.chunkChain ['x'] specs) (.text ['z']) .into = .ok s' ∧
        s'.get? ['x'] = some (.text ['a', ',', 'b', ' ', 'z', '\n', 'd']) ∧
        s'.context.value (.chunkChain ['x'] specs) = .ok (.text ['z']) := by
  intro t s specs
  have hlower : Text.lower ['x'] = ['x'] := by decide +kernel
  have hslot := slot?_singleton hlower .text (.text t) .standard
  have hkind : s.kind? ['x'] = some .text := congrArg (Option.map Slot.kind) hslot
  have ht : s.get? ['x'] = some (.text t) := congrArg (Option.map Slot.value) hslot
  have hne : specs ≠ [] := List.cons_ne_nil _ _
  have hn : specs.length < maxDepth := by decide
  have h : Nested.Addressed s.config.delimiters t specs :=
    ⟨by decide, by decide, by decide, trivial⟩
  have hv : (Value.text ['z']).Plain := .text _
  have htext : s.context.text (.text ['z']) = .ok ['z'] := rfl
  obtain ⟨s', hwrite, hget, hvalue⟩ := splice_chunkChain ht hkind hne hn h (.inl ⟨hv, htext⟩)
  have hspan : Nested.span s.config.delimiters t specs = ⟨4, 5⟩ := by decide
  rw [hspan] at hget
  have hspecs : ∀ spec ∈ specs, spec.IsSingle ∧ spec.kind.isSeparated = true := by
    simp only [specs, List.forall_mem_cons]
    exact ⟨⟨⟨rfl, 2, by decide, rfl⟩, rfl⟩, ⟨⟨rfl, 2, by decide, rfl⟩, rfl⟩,
      ⟨⟨rfl, 1, by decide, rfl⟩, rfl⟩, List.forall_mem_nil _⟩
  have hz {kind : ChunkKind} (h : Piece.separates kind s.config.delimiters 'z' = false) :
      Piece.Unbroken (Piece.separates kind s.config.delimiters) ['z'] :=
    ⟨List.cons_ne_nil _ _, List.forall_mem_singleton.2 h⟩
  have hr : ∀ spec ∈ specs,
      Piece.Unbroken (Piece.separates spec.kind s.config.delimiters) ['z'] := by
    simp only [specs, List.forall_mem_cons]
    exact ⟨hz (by decide), hz (by decide), hz (by decide), List.forall_mem_nil _⟩
  exact ⟨hkind, ht, hne, hn, h, hv, htext, s', hwrite, hget, hvalue hspecs hr⟩

end Store

end ScriptValue
