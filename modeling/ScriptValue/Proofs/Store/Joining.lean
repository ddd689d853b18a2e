import ScriptValue.Date.Reader
import ScriptValue.Proofs.Coercion.Joining
import ScriptValue.Proofs.Store.Typing

namespace ScriptValue.Store

section

variable [DateLibrary] {s : Store} {name : Text} {k : Kind} {v x y : Value}

theorem Typed.admits_of_slot? {slot : Slot} (h : s.Typed) (hslot : s.slot? name = some slot) :
    slot.kind.Admits slot.value := by
  obtain ⟨inner, scope, outer, hfound⟩ := slot?_eq_some_iff.1 hslot
  have hscope : scope ∈ s.scopes := by simp [hfound.scopes_eq]
  exact (h scope hscope _ _ (Entries.mem_of_get? hfound.get?_eq)).admits

theorem Typed.yields_current (h : s.Typed) (name : Text) :
    (s.kindFor name).Yields (s.current name) ∨ s.current name = .empty := by
  cases hslot : s.slot? name with
  | none => exact .inr (by rw [current, get?, hslot]; rfl)
  | some slot =>
    have hcurrent : s.current name = slot.value := by rw [current, get?, hslot]; rfl
    rw [kindFor_of_slot? hslot, hcurrent]
    exact (h.admits_of_slot? hslot).imp_right And.right

section Sequential

variable {β : Type} {T : Target (List β)} {a b c : List β} (hT : T.Sequential (s.kindFor name))

include hT

theorem Typed.exists_convert_current (h : s.Typed) :
    (s.current name).container? = none ∧
      ∃ c, ∀ ctx : Context, ctx.convert T (s.current name) = .ok c := by
  cases h.yields_current name with
  | inl hyields =>
    obtain ⟨c, hc⟩ := hT.exists_of_yields _ hyields
    rw [hc]
    exact ⟨hT.container?_toValue c, c, fun ctx => hT.convert_toValue ctx c⟩
  | inr hempty =>
    rw [hempty]
    exact ⟨rfl, [], fun _ => Context.convert_eq_nil hT rfl⟩

variable (hv : v.container? = none)

include hv

theorem prepend_eq (hc : (s.current name).container? = none) (ha : s.context.convert T v = .ok a)
    (hb : s.context.convert T (s.current name) = .ok b) :
    s.prepend name v = .ok (s.put name (s.kindFor name) (T.toValue (a ++ b))) := by
  rw [prepend, Context.convertBothTo_append hT hv hc ha hb]
  rfl

theorem append_eq (hc : (s.current name).container? = none)
    (ha : s.context.convert T (s.current name) = .ok a) (hb : s.context.convert T v = .ok b) :
    s.append name v = .ok (s.put name (s.kindFor name) (T.toValue (a ++ b))) := by
  rw [append, Context.convertBothTo_append hT hc hv ha hb]
  rfl

variable (ha : ∀ ctx : Context, ctx.config = s.config → ctx.convert T v = .ok a)

include ha

theorem prepend_put (b : List β) :
    (s.put name (s.kindFor name) (T.toValue b)).prepend name v =
      .ok (s.put name (s.kindFor name) (T.toValue (a ++ b))) := by
  have hkind := s.kindFor_put name (T.toValue b)
  have hcurrent := s.current_put name (s.kindFor name) (T.toValue b)
  have hput := prepend_eq (hkind.symm ▸ hT) hv
    ((congrArg _ hcurrent).trans (hT.container?_toValue b)) (ha _ (by simp))
    ((congrArg _ hcurrent).trans (hT.convert_toValue _ b))
  rwa [hkind, put_put] at hput

theorem append_put (b : List β) :
    (s.put name (s.kindFor name) (T.toValue b)).append name v =
      .ok (s.put name (s.kindFor name) (T.toValue (b ++ a))) := by
  have hkind := s.kindFor_put name (T.toValue b)
  have hcurrent := s.current_put name (s.kindFor name) (T.toValue b)
  have hput := append_eq (hkind.symm ▸ hT) hv
    ((congrArg _ hcurrent).trans (hT.container?_toValue b))
    ((congrArg _ hcurrent).trans (hT.convert_toValue _ b)) (ha _ (by simp))
  rwa [hkind, put_put] at hput

end Sequential

theorem Typed.prepend_append (h : s.Typed) (hk : s.kindFor name ∈ [Kind.text, .binary, .list])
    (hx : x.Plain) (hy : y.Plain) :
    ∃ w s', (s.context.convertBothTo (s.kindFor name) y (s.current name) >>=
        fun w => s.context.convertBothTo (s.kindFor name) w x) = .ok w ∧
      (s.prepend name y >>= fun s => s.append name x) = .ok s' ∧
      (s.append name x >>= fun s => s.prepend name y) = .ok s' ∧ s'.get? name = some w := by
  obtain ⟨β, T, hT⟩ := Kind.exists_sequential hk
  obtain ⟨a, ha⟩ := Context.exists_convert hT s.config hy
  obtain ⟨b, hb⟩ := Context.exists_convert hT s.config hx
  obtain ⟨hcurrent, c, hc⟩ := h.exists_convert_current hT
  have hx := hx.container?_eq_none
  have hy := hy.container?_eq_none
  refine ⟨T.toValue (a ++ c ++ b), s.put name (s.kindFor name) (T.toValue (a ++ c ++ b)),
    ?_, ?_, ?_, s.get?_put_self name _ _⟩
  · exact Context.convertBothTo_left_append hT hy hcurrent hx (ha _ rfl) (hc _) (hb _ rfl)
  · rw [prepend_eq hT hy hcurrent (ha _ rfl) (hc _)]
    exact append_put hT hx hb _
  · rw [append_eq hT hx hcurrent (hc _) (hb _ rfl), List.append_assoc]
    exact prepend_put hT hy ha _

/--
Three values without containers become the same text, bytes or list whichever two of them are put
together first; the text is their texts one behind the other. So it makes no difference to a
variable of such a kind, whatever it holds, which of two values is put before it or after it first.
-/
theorem joined_assoc (hk : k ∈ [Kind.text, .binary, .list]) :
    (∀ (ctx : Context) (a b c : Value), a.Plain → b.Plain → c.Plain →
      ∃ w, (ctx.convertBothTo k a b >>= fun ab => ctx.convertBothTo k ab c) = .ok w ∧
        (ctx.convertBothTo k b c >>= fun bc => ctx.convertBothTo k a bc) = .ok w) ∧
    (∀ (ctx : Context) (a b c : Value), a.Plain → b.Plain → c.Plain →
      ∃ t u v, ctx.text a = .ok t ∧ ctx.text b = .ok u ∧ ctx.text c = .ok v ∧
        ctx.convertBothTo .text a b = .ok (.text (t ++ u)) ∧
        (ctx.convertBothTo .text a b >>= fun ab => ctx.convertBothTo .text ab c) =
          .ok (.text (t ++ u ++ v))) ∧
    ∀ (s : Store) (name : Text) (x y : Value), s.Typed → s.kindFor name = k → x.Plain → y.Plain →
      ∃ w s', (s.context.convertBothTo k y (s.current name) >>= fun w =>
          s.context.convertBothTo k w x) = .ok w ∧
        (s.prepend name y >>= fun s => s.append name x) = .ok s' ∧
        (s.append name x >>= fun s => s.prepend name y) = .ok s' ∧ s'.get? name = some w := by
  refine ⟨fun ctx a b c ha hb hc => Context.convertBothTo_assoc hk ctx ha hb hc,
    fun ctx a b c ha hb hc => Context.convertBothTo_text ctx ha hb hc, ?_⟩
  rintro s name x y hs rfl hx hy
  exact hs.prepend_append hk hx hy

end

theorem joined_assoc_between :
    let s : Store := ⟨[(['x'], ⟨['x'], .text, .text ['m']⟩)], [], .standard⟩
    let x := Value.list [.boolean true, .empty]
    let y := Value.integer (.finite 1)
    Kind.text ∈ [Kind.text, .binary, .list] ∧ s.Typed ∧ s.kindFor ['x'] = .text ∧
      x.Plain ∧ y.Plain ∧ ∃ s',
        (s.prepend ['x'] y >>= fun s => s.append ['x'] x) = .ok s' ∧
        (s.append ['x'] x >>= fun s => s.prepend ['x'] y) = .ok s' ∧
        s'.get? ['x'] = some (.text "1mtrue,".toList) := by
  intro s x y
  have hlower : Text.lower ['x'] = ['x'] := by decide +kernel
  have hslot : s.slot? ['x'] = some ⟨['x'], .text, .text ['m']⟩ :=
    slot?_singleton hlower .text (.text ['m']) .standard
  have hk : Kind.text ∈ [Kind.text, .binary, .list] := by decide
  have hs : s.Typed := by
    refine List.forall_mem_singleton.2 fun key slot hmem => ?_
    cases List.mem_singleton.1 hmem
    exact ⟨hlower.symm, .inl rfl⟩
  have hkind : s.kindFor ['x'] = .text := kindFor_of_slot? hslot
  have hx : x.Plain := .list (by simp [Value.Plain.boolean, Value.Plain.empty])
  have hy : y.Plain := .integer _
  obtain ⟨w, s', hw, hprepend, happend, hget⟩ := (joined_assoc hk).2.2 s ['x'] x y hs hkind hx hy
  have hcurrent : s.current ['x'] = .text ['m'] := by rw [current, get?, hslot]; rfl
  rw [hcurrent] at hw
  cases hw.symm.trans (show _ = Except.ok (Value.text "1mtrue,".toList) by rfl)
  exact ⟨hk, hs, hkind, hx, hy, s', hprepend, happend, hget⟩

end ScriptValue.Store
