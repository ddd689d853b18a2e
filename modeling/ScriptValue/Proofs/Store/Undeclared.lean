import ScriptValue.Date.Reader
import ScriptValue.Proofs.Block.Render
import ScriptValue.Proofs.Store.Alike

/-!
Writing to parts of a variable that is not declared. The variable is empty where a part of it is
written, but where a part of a part is written the part is read, and it is read in the name of the
variable. So it makes a difference to declare the variable before, exactly where it makes one to the
text that comes to be written next to the variable.
-/

namespace ScriptValue

open Value

namespace Store

def placed (d : Delimiters) : Address → Text → Text
  | .key k, t => Block.render [(k, t)]
  | .chunk spec, t => splice d spec .into t []

theorem placed_injective (d : Delimiters) (address : Address) :
    Function.Injective (placed d address) := by
  cases address with
  | key k => exact Block.render_singleton_injective k
  | chunk spec =>
    intro t u h
    obtain ⟨padding, hpadding⟩ := exists_splice_nil (α := Char) d spec
    simpa [placed, hpadding] using h

section

variable [DateLibrary]

/-- Two writes that both fail, or that leave a variable with the same value. -/
def SameOutcome (name : Text) : Except ValueError Store → Except ValueError Store → Prop
  | .ok s, .ok s' => s.get? name = s'.get? name
  | .error _, .error _ => True
  | _, _ => False

theorem SameOutcome.get?_eq {name : Text} {r r' : Except ValueError Store}
    (h : SameOutcome name r r') :
    r.toOption.bind (·.get? name) = r'.toOption.bind (·.get? name) := by
  cases r <;> cases r'
  · rfl
  · cases h
  · cases h
  · exact h

def handed (s : Store) (name : Text) (last : Address) :
    List Address → Value → Preposition → Except ValueError (Value × Preposition)
  | [], v, p => .ok (v, p)
  | address :: inner, v, p => do
    let updated ← s.context.within.written (.chain name (inner ++ [last])) address v p
    handed s name last inner updated .into

def handedText? (s : Store) (name : Text) (last : Address) (inner : List Address) (v : Value)
    (p : Preposition) : Option Text :=
  (s.handed name last inner v p >>= fun r => s.context.text r.1).toOption

structure Blank (s : Store) (name : Text) : Prop where
  kindFor_eq : s.kindFor name = .text
  contents_eq : ∃ t, s.contents name = .text t
  isEmpty_current : (s.current name).isEmpty = true

variable {s d : Store} {name : Text} {last : Address} {v w : Value} {p : Preposition}

theorem exists_writtenEntry (hv : v.Plain) {t : Text} (ht : s.context.text v = .ok t)
    (p : Preposition) : ∃ entry, s.context.within.writtenEntry v .empty p = .ok entry ∧
      s.context.text entry = .ok t := by
  have hwithin : s.context.within.textOf v = .ok t := by rw [s.context.textOf_within hv, ht]
  cases p with
  | into => exact ⟨v, by rw [Access.writtenEntry, Access.contents, hv.container?_eq_none], ht⟩
  | before =>
    refine ⟨.text (t ++ []), ?_, by rw [List.append_nil]; rfl⟩
    rw [Access.writtenEntry, hwithin]
    rfl
  | after =>
    refine ⟨.text ([] ++ t), ?_, rfl⟩
    change (s.context.within.textOf v >>= fun r => Except.ok (Value.text ([] ++ r))) = _
    rw [hwithin]
    rfl

theorem convertTo_entry {entry : Value} {t : Text} (h : s.context.text entry = .ok t) (k : Text) :
    s.context.convertTo .text (.dictionary [(k, entry)]) = .ok (.text (Block.render [(k, t)])) := by
  have htext : s.context.outer.textOf (.dictionary [(k, entry)]) = .ok (Block.render [(k, t)]) := by
    change s.context.outer.textOf entry = .ok t at h
    rw [Access.textOf, Access.entryTexts, h]
    rfl
  change (s.context.outer.convertWhole .text (.dictionary [(k, entry)])).map _ = _
  rw [Access.convertWhole_of_none rfl, htext]
  rfl

theorem write_eq_handed (s : Store) (name : Text) (last : Address) (inner : List Address)
    (v : Value) (p : Preposition) : s.write (.chain name (inner ++ [last])) v p =
      s.handed name last inner v p >>= fun r => s.write (.part (.variable name) last) r.1 r.2 := by
  induction inner generalizing v p with
  | nil => rfl
  | cons address inner ih =>
    change s.write (.part (.chain name (inner ++ [last])) address) v p = _
    rw [handed, write]
    cases s.context.within.written (.chain name (inner ++ [last])) address v p with
    | error => rfl
    | ok updated => exact (if_pos (Value.kind_chain name _)).trans (ih updated .into)

theorem handed_congr (hconfig : s.config = d.config)
    (hbase : ∀ n, AlikeResults ((s.context.access n).resolve (.chain name [last]))
      ((d.context.access n).resolve (.chain name [last])))
    (inner : List Address) (hv : v.Plain) (p : Preposition) :
    s.handed name last inner v p = d.handed name last inner v p := by
  induction inner generalizing v p with
  | nil => rfl
  | cons address inner ih =>
    have hparent : AlikeResults
        (s.context.within.currentParent (.chain name (inner ++ [last])))
        (d.context.within.currentParent (.chain name (inner ++ [last]))) := by
      rw [Access.currentParent_chain, Access.currentParent_chain]
      exact Context.resolve_chain_alike hconfig [last] hbase inner _
    have hconfig' : s.context.within.config = d.context.within.config := by
      simpa using hconfig
    rw [handed, handed, Access.written_congr hconfig' hv hparent]
    cases hu : d.context.within.written (.chain name (inner ++ [last])) address v p with
    | error => rfl
    | ok u =>
      rw [← Access.written_congr hconfig' hv hparent] at hu
      exact ih (Access.plain_of_written hv hparent hu) .into

namespace Blank

theorem exists_resolve (h : s.Blank name) : ∃ t, s.contents name = .text t ∧
    ∀ n, (s.context.access n).resolve (.variable name) = .ok (.text t) := by
  obtain ⟨t, ht⟩ := h.contents_eq
  refine ⟨t, ht, fun n => Access.resolve_of_read rfl ?_ rfl⟩
  rw [Context.read_variable]
  exact congrArg _ ht

theorem resolve_variable_alike (h : s.Blank name) (n : Nat) :
    AlikeResults ((s.context.access n).resolve (.variable name))
      ((s.context.access n).resolve (.variable name)) := by
  obtain ⟨t, -, ht⟩ := h.exists_resolve
  rw [ht]
  exact .ok (.text t)

theorem currentParent (h : s.Blank name) :
    s.context.within.currentParent (.variable name) = .ok (s.current name) := by
  have hlookup : s.context.within.context.lookup? name = s.get? name := by simp [Context.within]
  rw [Access.currentParent, hlookup, current]
  cases hget : s.get? name with
  | none => rfl
  | some v =>
    have hv := h.isEmpty_current
    rw [current, hget] at hv
    exact Access.resolve_of_none _ (plain_of_isEmpty hv).container?_eq_none

theorem resolve_chain_alike (h : s.Blank name) (addresses : List Address) (n : Nat) :
    AlikeResults ((s.context.access n).resolve (.chain name addresses))
      ((s.context.access n).resolve (.chain name addresses)) := by
  simpa using Context.resolve_chain_alike rfl [] h.resolve_variable_alike addresses n

theorem plain_handed (h : s.Blank name) {inner : List Address} (hv : v.Plain)
    {r : Value × Preposition} (hr : s.handed name last inner v p = .ok r) : r.1.Plain := by
  induction inner generalizing v p with
  | nil =>
    cases hr
    exact hv
  | cons address inner ih =>
    obtain ⟨u, hu, hr⟩ := exists_of_bind_eq_ok hr
    have hparent := h.resolve_chain_alike (inner ++ [last]) 63
    rw [← Access.currentParent_chain] at hparent
    exact ih (Access.plain_of_written hv hparent hu) hr

theorem handedText?_congr (h : s.Blank name) (hconfig : s.config = d.config) (hv : v.Plain)
    {inner : List Address}
    (heq : s.handed name last inner v p = d.handed name last inner v p) :
    s.handedText? name last inner v p = d.handedText? name last inner v p := by
  rw [handedText?, handedText?, ← heq]
  cases hr : s.handed name last inner v p with
  | error => rfl
  | ok r =>
    refine congrArg Except.toOption (Access.textOf_congr ?_ (h.plain_handed hv hr))
    simpa using hconfig

theorem set_eq (h : s.Blank name) {t : Text} (hv : s.context.convertTo .text v = .ok (.text t)) :
    s.set name v = .ok (s.put name .text (.text t)) := by
  rw [set, h.kindFor_eq, hv]
  rfl

theorem write_last (h : s.Blank name) (hv : v.Plain) {t : Text} (ht : s.context.text v = .ok t)
    (last : Address) (p : Preposition) : s.write (.part (.variable name) last) v p =
      .ok (s.put name .text (.text (placed s.config.delimiters last t))) := by
  have hwithin : s.context.within.textOf v = .ok t := by rw [s.context.textOf_within hv, ht]
  suffices hwritten : ∃ u, s.context.within.written (.variable name) last v p = .ok u ∧
      s.context.convertTo .text u = .ok (.text (placed s.config.delimiters last t)) by
    obtain ⟨u, hu, hconvert⟩ := hwritten
    rw [write_part hu rfl, write, assign, h.set_eq hconvert]
  rw [Access.written_eq_bind, h.currentParent]
  change ∃ u, s.context.within.written (s.current name) last v p = .ok u ∧ _
  cases last with
  | key k =>
    rw [Access.written_key (plain_of_isEmpty h.isEmpty_current).container?_eq_none,
      Access.convertValue_of_isEmpty _ h.isEmpty_current]
    obtain ⟨entry, hentry, htext⟩ := exists_writtenEntry hv ht p
    refine ⟨.dictionary [(k, entry)], ?_, convertTo_entry htext k⟩
    change (s.context.within.writtenEntry v .empty p >>= _) = _
    rw [hentry]
    rfl
  | chunk spec =>
    rw [Access.written_of_isEmpty h.isEmpty_current, Access.written_text_chunk, hwithin]
    obtain ⟨padding, hpadding⟩ := exists_splice_nil (α := Char) s.config.delimiters spec
    refine ⟨_, rfl, ?_⟩
    rw [Context.config_within, placed, hpadding]
    exact congrArg (fun u => Except.ok (Value.text u)) (hpadding p t)

theorem write_cases (h : s.Blank name) (hv : v.Plain) (last : Address) (inner : List Address)
    (p : Preposition) :
    (s.handedText? name last inner v p = none ∧
      ∃ e, s.write (.chain name (inner ++ [last])) v p = .error e) ∨
    ∃ t s', s.handedText? name last inner v p = some t ∧
      s.write (.chain name (inner ++ [last])) v p = .ok s' ∧
      s'.get? name = some (.text (placed s.config.delimiters last t)) := by
  rw [write_eq_handed, handedText?]
  cases hr : s.handed name last inner v p with
  | error e => exact .inl ⟨rfl, e, rfl⟩
  | ok r =>
    have hplain := h.plain_handed hv hr
    obtain ⟨t, ht⟩ := s.context.outer.exists_textOf hplain
    refine .inr ⟨t, _, ?_, h.write_last hplain ht last r.2, get?_put_self ..⟩
    change (s.context.text r.1).toOption = _
    rw [Context.text, ht]
    rfl

theorem sameOutcome_iff (h : s.Blank name) (h' : d.Blank name) (hconfig : d.config = s.config)
    (hv : v.Plain) (last : Address) (inner : List Address) (p : Preposition) :
    SameOutcome name (s.write (.chain name (inner ++ [last])) v p)
        (d.write (.chain name (inner ++ [last])) v p) ↔
      s.handedText? name last inner v p = d.handedText? name last inner v p := by
  obtain ⟨ht, e, hwrite⟩ | ⟨t, s', ht, hwrite, hget⟩ := h.write_cases hv last inner p <;>
    obtain ⟨ht', e', hwrite'⟩ | ⟨t', d', ht', hwrite', hget'⟩ := h'.write_cases hv last inner p <;>
      rw [ht, ht', hwrite, hwrite']
  · exact iff_of_true trivial rfl
  · exact ⟨False.elim, nofun⟩
  · exact ⟨False.elim, nofun⟩
  · change s'.get? name = d'.get? name ↔ _
    rw [hget, hget', hconfig]
    simp [(placed_injective _ last).eq_iff]

end Blank

theorem blank_of_slot?_eq_none (h : s.slot? name = none) : s.Blank name := by
  have hget : s.get? name = none := by rw [get?, h, Option.map_none]
  refine ⟨kindFor_of_slot?_eq_none h, ⟨name, ?_⟩, ?_⟩
  · rw [contents, hget]
    rfl
  · rw [current, hget]
    rfl

theorem blank_declareSlot (s : Store) (name : Text) :
    (s.declareSlot ⟨name, .text, .text []⟩).Blank name := by
  refine ⟨kindFor_of_slot? (slot?_declareSlot s _), ⟨[], contents_declareSlot s _⟩, ?_⟩
  rw [current, get?_declareSlot s ⟨name, .text, .text []⟩]
  rfl

theorem resolve_last_alike (hs : s.Blank name) (hd : d.Blank name)
    (hempty : d.contents name = .text [])
    (h : s.context.value (.part (.variable name) last) = .ok w) (hw : w.isEmpty = true) (n : Nat) :
    AlikeResults ((s.context.access n).resolve (.part (.variable name) last))
      ((d.context.access n).resolve (.part (.variable name) last)) := by
  refine Access.resolve_alike (c := .part (.variable name) last) ?_
  cases n with
  | zero => exact .error _
  | succ n =>
    obtain ⟨t, -, ht⟩ := hs.exists_resolve
    obtain ⟨t', ht', hd'⟩ := hd.exists_resolve
    obtain rfl := Value.text.inj (hempty.symm.trans ht')
    have hread : (s.context.access 63).readPart (.text t) last = .ok w := by
      change (s.context.access (63 + 1)).read (.part (.variable name) last) = _ at h
      rw [Context.read_part, ht] at h
      exact h
    obtain ⟨u, hu, hempty⟩ := Access.exists_readPart_text
      (a := s.context.access 63) (b := s.context.access n) (by simp) hread hw
    obtain ⟨u', hu', hempty'⟩ := (d.context.access n).exists_readPart_nil last
    rw [Context.read_part, Context.read_part, ht, hd']
    change AlikeResults ((s.context.access n).readPart (.text t) last)
      ((d.context.access n).readPart (.text []) last)
    rw [hu, hu']
    exact .ok (.empty hempty hempty')

/--
A value that is written to a part of a part of a variable, and so on, comes to the same whether the
variable is not declared or is declared and empty, exactly if the text that comes to be written next
to the variable is the same when the variable reads as its name as when it is empty. It is where the
value itself is written next to the variable, and where that part is empty in the name.
-/
theorem sameOutcome_undeclared (h : s.slot? name = none) (hv : v.Plain) (last : Address)
    (inner : List Address) (p : Preposition) :
    ∃ d, s.declare name (some .text) none = .ok d ∧
      let target := Value.chain name (inner ++ [last])
      let same := SameOutcome name (s.write target v p) (d.write target v p)
      (same ↔ s.handedText? name last inner v p = d.handedText? name last inner v p) ∧
      (inner = [] → same) ∧
      ((∃ w, s.context.value (.part (.variable name) last) = .ok w ∧ w.isEmpty = true) → same) := by
  have hs := blank_of_slot?_eq_none h
  have hd := blank_declareSlot s name
  have hconfig : (s.declareSlot ⟨name, .text, .text []⟩).config = s.config := rfl
  have hiff := hs.sameOutcome_iff hd hconfig hv last inner p
  refine ⟨s.declareSlot ⟨name, .text, .text []⟩, rfl, hiff, ?_, ?_⟩
  · rintro rfl
    exact hiff.2 (hs.handedText?_congr hconfig.symm hv rfl)
  · rintro ⟨w, hw, hempty⟩
    have hlast := resolve_last_alike hs hd (contents_declareSlot s _) hw hempty
    exact hiff.2 (hs.handedText?_congr hconfig.symm hv (handed_congr hconfig.symm hlast inner hv p))

end

theorem sameOutcome_undeclared_item :
    let s := ofConfig .standard
    let item : Address := .chunk ⟨.item, .nth 2, none⟩
    let target := Value.chain ['x'] [.chunk ⟨.character, .nth 1, none⟩, item]
    let result := s.write target (.text ['z']) .into
    s.slot? ['x'] = none ∧ (Value.text ['z']).Plain ∧
      s.context.value (.part (.variable ['x']) item) = .ok (.text []) ∧
      (∃ d, s.declare ['x'] (some .text) none = .ok d ∧
        SameOutcome ['x'] result (d.write target (.text ['z']) .into)) ∧
      (result.toOption.bind (·.get? ['x'])).bind Value.text? = some [',', 'z'] := by
  intro s item target result
  have hslot : s.slot? ['x'] = none := rfl
  have hz : (Value.text ['z']).Plain := .text _
  have hitem : s.context.value (.part (.variable ['x']) item) = .ok (.text []) := rfl
  obtain ⟨d, hd, -, -, hsame⟩ :=
    sameOutcome_undeclared hslot hz item [.chunk ⟨.character, .nth 1, none⟩] .into
  exact ⟨hslot, hz, hitem, ⟨d, hd, hsame ⟨_, hitem, rfl⟩⟩, by decide +kernel⟩

theorem not_sameOutcome_undeclared :
    let s := ofConfig .standard
    let d := s.declareSlot ⟨['x'], .text, .text []⟩
    let target := Value.chain ['x'] [.chunk ⟨.item, .nth 2, none⟩, .chunk ⟨.line, .nth 1, none⟩]
    let result := s.write target (.text ['z']) .into
    let expected := d.write target (.text ['z']) .into
    s.slot? ['x'] = none ∧ s.declare ['x'] (some .text) none = .ok d ∧
      (result.toOption.bind (·.get? ['x'])).bind Value.text? = some ['x', ',', 'z'] ∧
      (expected.toOption.bind (·.get? ['x'])).bind Value.text? = some [',', 'z'] ∧
      ¬ SameOutcome ['x'] result expected := by
  intro s d target result expected
  have hresult : (result.toOption.bind (·.get? ['x'])).bind Value.text? = some ['x', ',', 'z'] := by
    decide +kernel
  have hexpected : (expected.toOption.bind (·.get? ['x'])).bind Value.text? = some [',', 'z'] := by
    decide +kernel
  refine ⟨rfl, rfl, hresult, hexpected, fun h => ?_⟩
  rw [h.get?_eq, hexpected] at hresult
  cases hresult

end Store

end ScriptValue
