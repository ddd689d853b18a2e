import ScriptValue.Proofs.Coercion.Kinds
import ScriptValue.Proofs.Coercion.Neutral

namespace ScriptValue

variable [DateLibrary]

structure Target.Sequential {β : Type} (T : Target (List β)) (k : Kind) : Prop where
  serves : T.Serves k
  append?_eq : T.append? = some (· ++ ·)
  ofValue?_empty : T.ofValue? .empty = none
  ofEmpty?_eq : T.ofEmpty? = some []
  isSome_parse? : ∀ c t, (T.parse? c t).isSome = true
  container?_toValue : ∀ x, (T.toValue x).container? = none
  convert_toValue : ∀ (ctx : Context) (x : List β), ctx.convert T (T.toValue x) = .ok x
  exists_of_yields : ∀ v, k.Yields v → ∃ x, v = T.toValue x

namespace Target

theorem sequential_text : Sequential .text .text :=
  ⟨serves_text, rfl, rfl, rfl, fun _ _ => rfl, fun _ => rfl, fun _ _ => rfl, fun v hv => by
      cases v with
      | text t => exact ⟨t, rfl⟩
      | _ => cases hv⟩

theorem sequential_binary : Sequential .binary .binary :=
  ⟨serves_binary, rfl, rfl, rfl, fun _ _ => rfl, fun _ => rfl, fun _ _ => rfl, fun v hv => by
      cases v with
      | binary bs => exact ⟨bs, rfl⟩
      | _ => cases hv⟩

theorem sequential_list : Sequential .list .list :=
  ⟨serves_list, rfl, rfl, rfl, fun _ _ => rfl, fun _ => rfl, Context.convert_list, fun v hv => by
      cases v with
      | list vs => exact ⟨vs, rfl⟩
      | _ => cases hv⟩

end Target

theorem Kind.exists_sequential {k : Kind} (hk : k ∈ [Kind.text, .binary, .list]) :
    ∃ (β : Type) (T : Target (List β)), T.Sequential k := by
  simp only [List.mem_cons, List.not_mem_nil, or_false] at hk
  rcases hk with rfl | rfl | rfl
  · exact ⟨_, _, Target.sequential_text⟩
  · exact ⟨_, _, Target.sequential_binary⟩
  · exact ⟨_, _, Target.sequential_list⟩

namespace Access

variable {α : Type} {a b : Access} {T : Target α} {v : Value}

theorem convertWhole_congr (hconfig : a.config = b.config) (hv : v.Plain) :
    a.convertWhole T v = b.convertWhole T v := by
  cases hgiven : T.given? v with
  | some x => rw [convertWhole_of_some hgiven, convertWhole_of_some hgiven]
  | none => rw [convertWhole_of_none hgiven, convertWhole_of_none hgiven, textOf_congr hconfig hv,
      hconfig]

theorem convertValue_congr (hconfig : a.config = b.config) (hv : v.Plain) :
    a.convertValue T v = b.convertValue T v := by
  induction hv with
  | @list vs hvs ih =>
    rw [convertValue, convertValue, convertWhole_congr hconfig (.list hvs)]
    rcases vs with _ | ⟨v, _ | ⟨w, vs⟩⟩
    · rfl
    · rw [convertOnly, convertOnly, ih v List.mem_cons_self]
    · rfl
  | dictionary hes => exact convertWhole_congr hconfig (.dictionary hes)
  | empty => exact convertWhole_congr hconfig .empty
  | text t => exact convertWhole_congr hconfig (.text t)
  | integer n => exact convertWhole_congr hconfig (.integer n)
  | decimal d => exact convertWhole_congr hconfig (.decimal d)
  | boolean b => exact convertWhole_congr hconfig (.boolean b)
  | binary bs => exact convertWhole_congr hconfig (.binary bs)
  | date d => exact convertWhole_congr hconfig (.date d)

theorem exists_convertValue (hparse : ∀ c t, (T.parse? c t).isSome = true) (a : Access)
    (hv : v.Plain) : ∃ x, a.convertValue T v = .ok x := by
  cases hconvert : a.convertValue T v with
  | ok x => exact ⟨x, rfl⟩
  | error e =>
    -- then its text could not be read
    obtain ⟨t, ht⟩ := a.exists_textOf hv
    obtain ⟨x, hx⟩ := Option.isSome_iff_exists.1 (hparse a.config t)
    have hfail : a.textOf v >>= T.ofText a.config = .error e :=
      ofText_of_convertWhole (convertWhole_of_convertValue hv.container?_eq_none hconvert)
    have hread : a.textOf v >>= T.ofText a.config = .ok x := by
      rw [ht]
      change T.ofText a.config t = _
      rw [Target.ofText, hx]
    cases hfail.symm.trans hread

theorem textOf_bind_ofText (a : Access) (v : Value) :
    a.textOf v >>= Target.text.ofText a.config = a.textOf v := by
  cases a.textOf v <;> rfl

theorem convertWhole_text (a : Access) (v : Value) : a.convertWhole .text v = a.textOf v := by
  cases hgiven : Target.text.given? v with
  | none => rw [convertWhole_of_none hgiven, textOf_bind_ofText]
  | some t =>
    rw [convertWhole_of_some hgiven]
    cases v <;> cases hgiven <;> rfl

end Access

namespace Context

variable {ctx : Context} {k : Kind} {e l r v : Value}

theorem convertValue_text_of (n : Nat)
    (h : ∀ c, (ctx.access n).convert .text c = (ctx.access n).text c) :
    (v : Value) → (ctx.access n).convertValue .text v = (ctx.access n).textOf v
  | .list [v] => by
    rw [convertValue_singleton (fun _ => rfl) rfl, Access.textOf_singleton]
    exact convertValue_text_of n h v
  | .variable name => h (.variable name)
  | .part parent address => h (.part parent address)
  | .list [] => (ctx.access n).convertWhole_text (.list [])
  | .list (v :: w :: vs) => (ctx.access n).convertWhole_text (.list (v :: w :: vs))
  | .empty => (ctx.access n).convertWhole_text .empty
  | .text t => (ctx.access n).convertWhole_text (.text t)
  | .integer m => (ctx.access n).convertWhole_text (.integer m)
  | .decimal d => (ctx.access n).convertWhole_text (.decimal d)
  | .boolean b => (ctx.access n).convertWhole_text (.boolean b)
  | .binary bs => (ctx.access n).convertWhole_text (.binary bs)
  | .dictionary es => (ctx.access n).convertWhole_text (.dictionary es)
  | .date d => (ctx.access n).convertWhole_text (.date d)

theorem convertValue_text (ctx : Context) (n : Nat) (v : Value) :
    (ctx.access n).convertValue .text v = (ctx.access n).textOf v := by
  induction n generalizing v with
  | zero => exact convertValue_text_of 0 (fun _ => rfl) v
  | succ n ih =>
    refine convertValue_text_of (n + 1) (fun c => ?_) v
    rw [convert_access_succ, text_access_succ]
    exact congrArg _ (funext ih)

theorem convert_text (ctx : Context) (v : Value) : ctx.convert .text v = ctx.text v :=
  ctx.convertValue_text maxDepth v

section Sequential

variable {β : Type} {T : Target (List β)} {x y z : List β} (hT : T.Sequential k)

include hT

theorem convert_eq_nil (he : e.isEmpty = true) : ctx.convert T e = .ok [] := by
  rw [convert_of_isEmpty hT.serves he (w := .empty) rfl]
  exact convert_empty ctx hT.ofValue?_empty hT.ofEmpty?_eq

theorem convertBoth_append (hl : l.container? = none) (hr : r.container? = none)
    (hx : ctx.convert T l = .ok x) (hy : ctx.convert T r = .ok y) :
    ctx.convertBoth T l r = .ok (x ++ y) := by
  by_cases hlempty : l.isEmpty = true
  · obtain rfl : x = [] := Except.ok.inj (hx.symm.trans (convert_eq_nil hT hlempty))
    rw [convertBoth_left T hlempty, resolve_of_none hr]
    exact hy
  · by_cases hrempty : r.isEmpty = true
    · obtain rfl : y = [] := Except.ok.inj (hy.symm.trans (convert_eq_nil hT hrempty))
      rw [convertBoth_right hT.serves hrempty, resolve_of_none hl, List.append_nil]
      exact hx
    · rw [convertBoth, resolve_of_none hl, resolve_of_none hr]
      simp only [bind, Except.bind, if_neg hlempty, if_neg hrempty, hT.append?_eq, hx, hy]
      rfl

theorem convertBothTo_append (hl : l.container? = none) (hr : r.container? = none)
    (hx : ctx.convert T l = .ok x) (hy : ctx.convert T r = .ok y) :
    ctx.convertBothTo k l r = .ok (T.toValue (x ++ y)) := by
  rw [hT.serves.convertBothTo_eq, convertBoth_append hT hl hr hx hy]
  rfl

theorem convertBothTo_left_append (hl : l.container? = none) (hr : r.container? = none)
    (hv : v.container? = none) (hx : ctx.convert T l = .ok x) (hy : ctx.convert T r = .ok y)
    (hz : ctx.convert T v = .ok z) :
    (ctx.convertBothTo k l r >>= fun w => ctx.convertBothTo k w v) =
      .ok (T.toValue (x ++ y ++ z)) := by
  rw [convertBothTo_append hT hl hr hx hy]
  exact convertBothTo_append hT (hT.container?_toValue _) hv (hT.convert_toValue ctx _) hz

theorem convertBothTo_right_append (hl : l.container? = none) (hr : r.container? = none)
    (hv : v.container? = none) (hx : ctx.convert T l = .ok x) (hy : ctx.convert T r = .ok y)
    (hz : ctx.convert T v = .ok z) :
    (ctx.convertBothTo k r v >>= fun w => ctx.convertBothTo k l w) =
      .ok (T.toValue (x ++ (y ++ z))) := by
  rw [convertBothTo_append hT hr hv hy hz]
  exact convertBothTo_append hT hl (hT.container?_toValue _) hx (hT.convert_toValue ctx _)

theorem exists_convert (c : Config) (hv : v.Plain) :
    ∃ x, ∀ ctx : Context, ctx.config = c → ctx.convert T v = .ok x := by
  obtain ⟨x, hx⟩ := Access.exists_convertValue hT.isSome_parse? (ofConfig c).outer hv
  refine ⟨x, fun ctx hctx => ?_⟩
  have hconfig : ctx.outer.config = (ofConfig c).outer.config := by simp [hctx, ofConfig]
  exact (Access.convertValue_congr hconfig hv).trans hx

end Sequential

theorem convertBothTo_assoc (hk : k ∈ [Kind.text, .binary, .list]) (ctx : Context) (hl : l.Plain)
    (hr : r.Plain) (hv : v.Plain) :
    ∃ w, (ctx.convertBothTo k l r >>= fun w => ctx.convertBothTo k w v) = .ok w ∧
      (ctx.convertBothTo k r v >>= fun w => ctx.convertBothTo k l w) = .ok w := by
  obtain ⟨β, T, hT⟩ := Kind.exists_sequential hk
  obtain ⟨x, hx⟩ := exists_convert hT ctx.config hl
  obtain ⟨y, hy⟩ := exists_convert hT ctx.config hr
  obtain ⟨z, hz⟩ := exists_convert hT ctx.config hv
  have hl' := hl.container?_eq_none
  have hr' := hr.container?_eq_none
  have hv' := hv.container?_eq_none
  refine ⟨T.toValue (x ++ y ++ z), ?_, ?_⟩
  · exact convertBothTo_left_append hT hl' hr' hv' (hx ctx rfl) (hy ctx rfl) (hz ctx rfl)
  · rw [List.append_assoc]
    exact convertBothTo_right_append hT hl' hr' hv' (hx ctx rfl) (hy ctx rfl) (hz ctx rfl)

theorem convertBothTo_text (ctx : Context) (hl : l.Plain) (hr : r.Plain) (hv : v.Plain) :
    ∃ x y z, ctx.text l = .ok x ∧ ctx.text r = .ok y ∧ ctx.text v = .ok z ∧
      ctx.convertBothTo .text l r = .ok (.text (x ++ y)) ∧
      (ctx.convertBothTo .text l r >>= fun w => ctx.convertBothTo .text w v) =
        .ok (.text (x ++ y ++ z)) := by
  obtain ⟨x, hx⟩ := ctx.outer.exists_textOf hl
  obtain ⟨y, hy⟩ := ctx.outer.exists_textOf hr
  obtain ⟨z, hz⟩ := ctx.outer.exists_textOf hv
  have hl' := hl.container?_eq_none
  have hr' := hr.container?_eq_none
  have hv' := hv.container?_eq_none
  -- what a value becomes as a text is its text
  have hxl : ctx.convert .text l = .ok x := (convert_text ctx l).trans hx
  have hyr : ctx.convert .text r = .ok y := (convert_text ctx r).trans hy
  have hzv : ctx.convert .text v = .ok z := (convert_text ctx v).trans hz
  exact ⟨x, y, z, hx, hy, hz, convertBothTo_append Target.sequential_text hl' hr' hxl hyr,
    convertBothTo_left_append Target.sequential_text hl' hr' hv' hxl hyr hzv⟩

end Context

end ScriptValue
