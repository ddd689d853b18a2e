import ScriptValue.Proofs.Block.RoundTrip
import ScriptValue.Proofs.Coercion.Kinds
import ScriptValue.Proofs.Coercion.Singleton
import ScriptValue.Proofs.Store.Chain

namespace ScriptValue

variable [DateLibrary]

namespace Value

/-- Two values that are read from text, and are the same or both of them empty. -/
inductive Alike : Value → Value → Prop
  | text (t) : Alike (.text t) (.text t)
  | dictionary {es : Dictionary} (h : Tree (fun _ => True) (.dictionary es)) :
      Alike (.dictionary es) (.dictionary es)
  | empty {v w} (hv : v.isEmpty = true) (hw : w.isEmpty = true) : Alike v w

inductive AlikeResults : Except ValueError Value → Except ValueError Value → Prop
  | error (e) : AlikeResults (.error e) (.error e)
  | ok {v w} (h : Alike v w) : AlikeResults (.ok v) (.ok w)

variable {v w : Value} {r r' : Except ValueError Value}

theorem AlikeResults.bind (h : AlikeResults r r') {f f' : Value → Except ValueError Value}
    (hf : ∀ {v w}, Alike v w → AlikeResults (f v) (f' w)) : AlikeResults (r >>= f) (r' >>= f') := by
  cases h with
  | error e => exact .error e
  | ok h => exact hf h

theorem AlikeResults.bind_eq {α : Type} (h : AlikeResults r r') {f f' : Value → Except ValueError α}
    (hf : ∀ {v w}, Alike v w → f v = f' w) : r >>= f = r' >>= f' := by
  cases h with
  | error e => rfl
  | ok h => exact hf h

theorem Tree.plain {P : Text → Prop} (h : v.Tree P) : v.Plain := by
  induction h with
  | text => exact .text _
  | dictionary _ _ ih => exact .dictionary ih

theorem plain_of_isEmpty (h : v.isEmpty = true) : v.Plain := by
  obtain rfl | rfl := isEmpty_iff.1 h
  · exact .empty
  · exact .text []

theorem Alike.plain (h : Alike v w) : v.Plain ∧ w.Plain := by
  cases h with
  | text t => exact ⟨.text t, .text t⟩
  | dictionary h => exact ⟨h.plain, h.plain⟩
  | empty hv hw => exact ⟨plain_of_isEmpty hv, plain_of_isEmpty hw⟩

theorem Alike.isEmpty_eq (h : Alike v w) : v.isEmpty = w.isEmpty := by
  cases h with
  | empty hv hw => rw [hv, hw]
  | _ => rfl

theorem AlikeResults.exists_ok (h : AlikeResults (.ok v) r) : ∃ w, r = .ok w ∧ Alike v w := by
  cases h with
  | ok h => exact ⟨_, rfl, h⟩

theorem Tree.alike {P : Text → Prop} (h : v.Tree P) : Alike v v := by
  cases h with
  | text => exact .text _
  | dictionary hn hes =>
    exact .dictionary (.dictionary hn fun e he => (hes e he).imp fun _ _ => trivial)

theorem alike_entry {d : Dictionary} (h : Tree (fun _ => True) (.dictionary d)) (k : Text) :
    Alike ((d.get? k).getD .empty) ((d.get? k).getD .empty) := by
  cases h with
  | dictionary _ hes =>
    cases hk : d.get? k with
    | none => exact .empty rfl rfl
    | some v => exact (hes _ (Entries.mem_of_get? hk)).alike

end Value

open Value

namespace Access

variable {a b : Access} {v w u parent : Value} {d : Dictionary} {p : Preposition}
  {r : Except ValueError Value}

theorem convertValue_of_isEmpty (a : Access) (hv : v.isEmpty = true) :
    a.convertValue .dictionary v = .ok [] := by
  obtain rfl | rfl := isEmpty_iff.1 hv <;> rfl

theorem convertValue_alike (h : Alike v w) (a b : Access) :
    a.convertValue .dictionary v = b.convertValue .dictionary w := by
  cases h with
  | text t => rfl
  | dictionary h => rfl
  | empty hv hw => rw [convertValue_of_isEmpty a hv, convertValue_of_isEmpty b hw]

theorem tree_of_ofText {c : Config} {t : Text} (h : Target.dictionary.ofText c t = .ok d) :
    Tree (fun _ => True) (.dictionary d) := by
  rw [Target.ofText] at h
  split at h
  case h_1 hd =>
    cases h
    exact (Block.tree_of_parse hd).imp fun _ _ => trivial
  case h_2 => cases h

theorem tree_of_convertValue (h : Alike v w) (hd : a.convertValue .dictionary v = .ok d) :
    Tree (fun _ => True) (.dictionary d) := by
  by_cases hv : v.isEmpty = true
  · rw [convertValue_of_isEmpty a hv] at hd
    cases hd
    exact .dictionary List.nodup_nil (List.forall_mem_nil _)
  · cases h with
    | text t =>
      have hgiven : Target.dictionary.given? (.text t) = none := by
        simpa [Target.given?, Target.dictionary] using hv
      exact tree_of_ofText ((convertWhole_of_none (a := a) hgiven).symm.trans hd)
    | dictionary h =>
      cases hd
      exact h
    | empty hv' => exact absurd hv' hv

theorem readPart_of_isEmpty (hv : v.isEmpty = true) (spec : ChunkSpec) :
    a.readPart v (.chunk spec) = .ok (.text (extract a.config.delimiters spec [])) := by
  obtain rfl | rfl := isEmpty_iff.1 hv <;> rfl

theorem readPart_alike (hconfig : a.config = b.config) (h : Alike v w) (address : Address) :
    AlikeResults (a.readPart v address) (b.readPart w address) := by
  cases address with
  | key k =>
    change AlikeResults (a.convertValue .dictionary v >>= _) (b.convertValue .dictionary w >>= _)
    rw [← convertValue_alike h a b]
    cases hd : a.convertValue .dictionary v with
    | error e => exact .error e
    | ok d => exact .ok (alike_entry (tree_of_convertValue h hd) k)
  | chunk spec =>
    cases h with
    | text t =>
      rw [readPart_text, readPart_text, hconfig]
      exact .ok (.text _)
    | dictionary => exact .error _
    | empty hv hw =>
      rw [readPart_of_isEmpty hv, readPart_of_isEmpty hw, hconfig]
      exact .ok (.text _)

theorem exists_readPart_nil (a : Access) (address : Address) :
    ∃ w, a.readPart (.text []) address = .ok w ∧ w.isEmpty = true := by
  cases address with
  | key k => exact ⟨.empty, rfl, rfl⟩
  | chunk spec => exact ⟨.text [], by rw [readPart_text, extract_nil], rfl⟩

theorem exists_readPart_text (hconfig : a.config = b.config) {t : Text} {address : Address}
    (h : a.readPart (.text t) address = .ok w) (hw : w.isEmpty = true) :
    ∃ u, b.readPart (.text t) address = .ok u ∧ u.isEmpty = true := by
  have halike := readPart_alike hconfig (.text t) address
  rw [h] at halike
  obtain ⟨u, hu, hwu⟩ := halike.exists_ok
  exact ⟨u, hu, hwu.isEmpty_eq ▸ hw⟩

theorem resolve_toValue (a : Access) (c : Container) :
    a.resolve c.toValue = a.read c >>= a.resolveWithin (maxDepth - 1) := by
  cases c <;> rfl

theorem resolve_alike {c : Container} (h : AlikeResults (a.read c) (b.read c)) :
    AlikeResults (a.resolve c.toValue) (b.resolve c.toValue) := by
  have hplain {e : Access} {v : Value} (hv : v.Plain) :
      e.resolveWithin (maxDepth - 1) v = .ok v := by
    change e.resolveWithin (62 + 1) v = _
    rw [resolveWithin, hv.container?_eq_none]
  rw [resolve_toValue, resolve_toValue]
  refine h.bind fun hvw => ?_
  rw [hplain hvw.plain.1, hplain hvw.plain.2]
  exact .ok hvw

theorem currentParent_of_none (hv : v.container? = none) : a.currentParent v = .ok v := by
  rw [currentParent]
  · exact a.resolve_of_none hv
  · rintro name rfl
    cases hv

theorem container?_of_currentParent (h : a.currentParent parent = .ok w) : w.container? = none := by
  unfold currentParent at h
  split at h
  · split at h
    · exact container?_of_resolve h
    · cases h
      rfl
  · exact container?_of_resolve h

theorem written_eq_bind (a : Access) (parent : Value) (address : Address) (v : Value)
    (p : Preposition) : a.written parent address v p =
      a.currentParent parent >>= fun w => a.written w address v p := by
  cases h : a.currentParent parent with
  | error =>
    rw [written, h]
    rfl
  | ok w =>
    change _ = a.written w address v p
    rw [written, written, h, currentParent_of_none (container?_of_currentParent h)]

theorem written_key (hw : w.container? = none) (k : Text) (v : Value) (p : Preposition) :
    a.written w (.key k) v p = (do
      let d ← a.convertValue .dictionary w
      let entry ← a.writtenEntry v ((d.get? k).getD .empty) p
      return .dictionary (d.insert k entry)) := by
  rw [written, currentParent_of_none hw]
  rfl

theorem written_of_isEmpty (hw : w.isEmpty = true) (spec : ChunkSpec) (v : Value)
    (p : Preposition) : a.written w (.chunk spec) v p = a.written (.text []) (.chunk spec) v p := by
  obtain rfl | rfl := isEmpty_iff.1 hw <;> rfl

theorem written_text_chunk (a : Access) (t : Text) (spec : ChunkSpec) (v : Value)
    (p : Preposition) : a.written (.text t) (.chunk spec) v p = (do
      return .text (splice a.config.delimiters spec p (← a.textOf v) t)) := rfl

theorem writtenEntry_congr (hconfig : a.config = b.config) (hv : v.Plain) (hw : w.Plain)
    (p : Preposition) : a.writtenEntry v w p = b.writtenEntry v w p := by
  cases p <;>
    simp [writtenEntry, contents, hv.container?_eq_none, textOf_congr hconfig hv,
      textOf_congr hconfig hw]

theorem written_alike (hconfig : a.config = b.config) (hv : v.Plain) {w w' : Value}
    (h : Alike w w') (address : Address) (p : Preposition) :
    a.written w address v p = b.written w' address v p := by
  cases address with
  | key k =>
    rw [written_key h.plain.1.container?_eq_none, written_key h.plain.2.container?_eq_none,
      ← convertValue_alike h a b]
    cases hd : a.convertValue .dictionary w with
    | error => rfl
    | ok d =>
      have hentry := (alike_entry (tree_of_convertValue h hd) k).plain.1
      change (a.writtenEntry v _ p >>= fun _ => _) = (b.writtenEntry v _ p >>= fun _ => _)
      rw [writtenEntry_congr hconfig hv hentry]
  | chunk spec =>
    cases h with
    | text t => rw [written_text_chunk, written_text_chunk, textOf_congr hconfig hv, hconfig]
    | dictionary => rfl
    | empty hw hw' =>
      rw [written_of_isEmpty hw, written_of_isEmpty hw', written_text_chunk, written_text_chunk,
        textOf_congr hconfig hv, hconfig]

theorem written_congr (hconfig : a.config = b.config) (hv : v.Plain) {parent parent' : Value}
    (h : AlikeResults (a.currentParent parent) (b.currentParent parent')) (address : Address)
    (p : Preposition) : a.written parent address v p = b.written parent' address v p := by
  rw [written_eq_bind a, written_eq_bind b]
  exact h.bind_eq fun h => written_alike hconfig hv h address p

theorem plain_of_writtenEntry (hv : v.Plain) (h : a.writtenEntry v w p = .ok u) : u.Plain := by
  cases p with
  | into =>
    rw [writtenEntry, contents, hv.container?_eq_none] at h
    cases h
    exact hv
  | before =>
    obtain ⟨t, -, h⟩ := exists_of_bind_eq_ok h
    obtain ⟨t', -, h⟩ := exists_of_bind_eq_ok h
    cases h
    exact .text _
  | after =>
    obtain ⟨t, -, h⟩ := exists_of_bind_eq_ok h
    obtain ⟨t', -, h⟩ := exists_of_bind_eq_ok h
    cases h
    exact .text _

theorem plain_of_written_text {t : Text} {spec : ChunkSpec}
    (h : a.written (.text t) (.chunk spec) v p = .ok u) : u.Plain := by
  rw [written_text_chunk] at h
  obtain ⟨r, -, h⟩ := exists_of_bind_eq_ok h
  cases h
  exact .text _

theorem plain_of_written (hv : v.Plain) (hparent : AlikeResults (a.currentParent parent) r)
    {address : Address} (h : a.written parent address v p = .ok u) : u.Plain := by
  rw [written_eq_bind] at h
  obtain ⟨w, hw, h⟩ := exists_of_bind_eq_ok h
  rw [hw] at hparent
  cases hparent with
  | ok halike =>
    cases address with
    | key k =>
      rw [written_key halike.plain.1.container?_eq_none] at h
      obtain ⟨d, hd, h⟩ := exists_of_bind_eq_ok h
      obtain ⟨entry, hentry, h⟩ := exists_of_bind_eq_ok h
      cases h
      refine .dictionary fun e he => ?_
      obtain rfl | he := Entries.mem_of_mem_insert he
      · exact plain_of_writtenEntry hv hentry
      · cases (tree_of_convertValue halike hd).plain with
        | dictionary hd => exact hd e he
    | chunk spec =>
      cases halike with
      | text t => exact plain_of_written_text h
      | dictionary => cases h
      | empty hw =>
        rw [written_of_isEmpty hw] at h
        exact plain_of_written_text h

theorem currentParent_chain (a : Access) (name : Text) (inner : List Address) (last : Address) :
    a.currentParent (.chain name (inner ++ [last])) =
      a.resolve (.chain name (inner ++ [last])) := by
  cases inner <;> rfl

end Access

theorem Context.resolve_chain_alike {ctx ctx' : Context} {name : Text}
    (hconfig : ctx.config = ctx'.config) (base : List Address)
    (hbase : ∀ n, AlikeResults ((ctx.access n).resolve (.chain name base))
      ((ctx'.access n).resolve (.chain name base))) (inner : List Address) (n : Nat) :
    AlikeResults ((ctx.access n).resolve (.chain name (inner ++ base)))
      ((ctx'.access n).resolve (.chain name (inner ++ base))) := by
  induction inner generalizing n with
  | nil => exact hbase n
  | cons address inner ih =>
    refine Access.resolve_alike (c := .part _ address) ?_
    cases n with
    | zero => exact .error _
    | succ n =>
      -- the part next to this one is read on the level below
      rw [read_part, read_part]
      exact (ih n).bind fun h => Access.readPart_alike (by simp [hconfig]) h address

end ScriptValue
