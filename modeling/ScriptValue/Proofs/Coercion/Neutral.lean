import ScriptValue.Date.Reader
import ScriptValue.Proofs.Coercion.Levels
import ScriptValue.Proofs.Store.Slots

/-!
The empty value where two values are turned into one. It leaves the other value as it is: that is
turned into the kind as it would be alone, except for a container that alone has no level left, and
for one that refers to nothing where a container is wanted.
-/

namespace ScriptValue

namespace Context

section

variable [DateLibrary]

variable {α : Type} {ctx : Context} {T : Target α} {k : Kind} {e w x : Value}

theorem resolve_of_none (hx : x.container? = none) : ctx.resolve x = .ok x :=
  Access.resolve_of_none _ hx

theorem resolve_of_isEmpty (he : e.isEmpty = true) : ctx.resolve e = .ok e := by
  obtain rfl | rfl := Value.isEmpty_iff.1 he <;> rfl

theorem convert_nil (ctx : Context) (hT : T.Serves k) :
    ctx.convert T (.text []) = ctx.convert T .empty := by
  change ctx.outer.convertWhole T _ = ctx.outer.convertWhole T _
  cases hgiven : T.given? .empty with
  | some y =>
    rw [Access.convertWhole_of_some hgiven, Access.convertWhole_of_some (hT.given?_nil ▸ hgiven)]
  | none =>
    rw [Access.convertWhole_of_none hgiven, Access.convertWhole_of_none (hT.given?_nil ▸ hgiven)]
    rfl

theorem convert_of_isEmpty (hT : T.Serves k) (he : e.isEmpty = true) (hw : w.isEmpty = true) :
    ctx.convert T e = ctx.convert T w := by
  obtain rfl | rfl := Value.isEmpty_iff.1 he <;> obtain rfl | rfl := Value.isEmpty_iff.1 hw
  · rfl
  · rw [convert_nil ctx hT]
  · rw [convert_nil ctx hT]
  · rfl

theorem convertBoth_left (T : Target α) (he : e.isEmpty = true) (x : Value) :
    ctx.convertBoth T e x = ctx.resolve x >>= ctx.convert T := by
  rw [convertBoth, resolve_of_isEmpty he]
  cases ctx.resolve x with
  | error => rfl
  | ok w => exact if_pos he

theorem convertBoth_right (hT : T.Serves k) (he : e.isEmpty = true) (x : Value) :
    ctx.convertBoth T x e = ctx.resolve x >>= ctx.convert T := by
  rw [convertBoth, resolve_of_isEmpty he]
  cases ctx.resolve x with
  | error => rfl
  | ok w =>
    cases hw : w.isEmpty with
    | true => exact (if_pos hw).trans (convert_of_isEmpty hT he hw)
    | false => exact (if_neg (by simp [hw])).trans (if_pos he)

theorem extendsTo_convert (hT : T.Opens) (x : Value) :
    ExtendsTo (ctx.convert T x) (ctx.resolve x >>= ctx.convert T) := by
  cases hx : x.container? with
  | none =>
    rw [resolve_of_none hx]
    exact extendsTo_rfl
  | some c =>
    obtain rfl := Value.eq_toValue hx
    have hbelow := below_access_succ ctx 63
    rw [convert, Access.convertValue_toValue]
    exact (hbelow.resolve _).bind (below_convertValue hbelow hT)

theorem convertEither_left (k : Kind) (he : e.isEmpty = true) (x : Value) :
    ctx.convertEither k e x = ctx.convertTo k x := by
  rw [convertEither, resolve_of_isEmpty he]
  exact if_pos he

theorem convertTo_empty (ctx : Context) (x : Value) :
    ctx.convertTo .empty x = ctx.resolve x >>= ctx.convertTo .empty := by
  change (ctx.resolve x >>= _) = _
  cases hx : ctx.resolve x with
  | error => rfl
  | ok w =>
    have hw : ctx.resolve w = .ok w := resolve_of_none (Access.container?_of_resolve hx)
    change _ = (ctx.resolve w >>= _)
    rw [hw]

theorem convertTo_empty_of_isEmpty (he : e.isEmpty = true) :
    ctx.convertTo .empty e = .ok .empty := by
  obtain rfl | rfl := Value.isEmpty_iff.1 he <;> rfl

theorem convertTo_container_of_isEmpty (he : e.isEmpty = true) :
    ctx.convertTo .container e = .error (.coercionFailed .container) := by
  obtain rfl | rfl := Value.isEmpty_iff.1 he <;> rfl

theorem convertTo_container (ctx : Context) (c : Container) :
    ctx.convertTo .container c.toValue = .ok c.toValue := by
  cases c <;> rfl

section Kinds

variable (hk : k ≠ .container)

include hk

theorem convertBothTo_left (he : e.isEmpty = true) (x : Value) :
    ctx.convertBothTo k e x = ctx.resolve x >>= ctx.convertTo k := by
  by_cases hempty : k = .empty
  · subst hempty
    exact (convertEither_left .empty he x).trans (convertTo_empty ctx x)
  · obtain ⟨α, T, hT⟩ := Kind.exists_serves hempty hk
    rw [hT.convertBothTo_eq, convertBoth_left T he]
    cases ctx.resolve x with
    | error => rfl
    | ok w => exact (hT.convertTo_eq ctx w).symm

theorem convertBothTo_right (he : e.isEmpty = true) (x : Value) :
    ctx.convertBothTo k x e = ctx.resolve x >>= ctx.convertTo k := by
  by_cases hempty : k = .empty
  · subst hempty
    change ctx.convertEither .empty x e = _
    rw [convertEither, resolve_of_isEmpty he, convertTo_empty_of_isEmpty he, convertTo_empty]
    cases ctx.resolve x with
    | error => rfl
    | ok w =>
      cases hw : w.isEmpty with
      | true => exact (if_pos hw).trans (convertTo_empty_of_isEmpty hw).symm
      | false => exact (if_neg (by simp [hw])).trans (if_pos he)
  · obtain ⟨α, T, hT⟩ := Kind.exists_serves hempty hk
    rw [hT.convertBothTo_eq, convertBoth_right hT he]
    cases ctx.resolve x with
    | error => rfl
    | ok w => exact (hT.convertTo_eq ctx w).symm

theorem extendsTo_convertTo (x : Value) :
    ExtendsTo (ctx.convertTo k x) (ctx.resolve x >>= ctx.convertTo k) := by
  by_cases hempty : k = .empty
  · subst hempty
    exact .inr (convertTo_empty ctx x)
  · obtain ⟨α, T, hT⟩ := Kind.exists_serves hempty hk
    have hmap : ctx.resolve x >>= ctx.convertTo k =
        (ctx.resolve x >>= ctx.convert T).map T.toValue := by
      cases ctx.resolve x with
      | error => rfl
      | ok w => exact hT.convertTo_eq ctx w
    rw [hmap, hT.convertTo_eq]
    exact (extendsTo_convert hT.given?_list x).map _

end Kinds

/-- Whether a value has no level left to be turned into a kind, while what it refers to has. -/
def RunsShort (ctx : Context) (k : Kind) (x : Value) : Prop :=
  ctx.convertTo k x = .error .tooDeep ∧ (ctx.resolve x >>= ctx.convertTo k) ≠ .error .tooDeep

def Refers (ctx : Context) (x : Value) : Prop :=
  x.container? = none ∨ ∃ w, ctx.resolve x = .ok w ∧ w.isEmpty = false

theorem not_runsShort_iff (hk : k ≠ .container) :
    (ctx.resolve x >>= ctx.convertTo k) = ctx.convertTo k x ↔ ¬ ctx.RunsShort k x := by
  constructor
  · rintro heq ⟨hshort, hne⟩
    exact hne (heq.trans hshort)
  · intro hshort
    have hx : ExtendsTo (ctx.convertTo k x) (ctx.resolve x >>= ctx.convertTo k) :=
      extendsTo_convertTo hk x
    cases hx with
    | inl h => exact (not_not.1 fun hne => hshort ⟨h, hne⟩).trans h.symm
    | inr h => exact h.symm

theorem not_runsShort_container (ctx : Context) (x : Value) : ¬ ctx.RunsShort .container x := by
  rintro ⟨h, -⟩
  rw [convertTo] at h
  split at h <;> cases h

theorem convertBothTo_container_of_none (he : e.isEmpty = true) (hx : x.container? = none) :
    ctx.convertBothTo .container x e = ctx.convertTo .container x := by
  change ctx.convertEither .container x e = _
  rw [convertEither, resolve_of_isEmpty he, resolve_of_none hx]
  cases hempty : x.isEmpty with
  | true =>
    rw [convertTo_container_of_isEmpty hempty, ← convertTo_container_of_isEmpty he]
    exact if_pos hempty
  | false => exact (if_neg (by simp [hempty])).trans (if_pos he)

theorem convertBothTo_container_iff (he : e.isEmpty = true) :
    ctx.convertBothTo .container x e = ctx.convertTo .container x ↔ ctx.Refers x := by
  cases hx : x.container? with
  | none => exact ⟨fun _ => .inl hx, fun _ => convertBothTo_container_of_none he hx⟩
  | some c =>
    obtain rfl := Value.eq_toValue hx
    change ctx.convertEither .container c.toValue e = _ ↔ _
    rw [convertEither, resolve_of_isEmpty he, convertTo_container, Refers, hx]
    cases ctx.resolve c.toValue with
    | error =>
      refine ⟨nofun, ?_⟩
      rintro (h | ⟨w, h, -⟩) <;> cases h
    | ok w =>
      cases hw : w.isEmpty with
      | true =>
        refine ⟨fun h => ?_, ?_⟩
        · have hlost := (if_pos hw).symm.trans h
          rw [convertTo_container_of_isEmpty he] at hlost
          cases hlost
        · rintro (h | ⟨w', h, hw'⟩)
          · cases h
          · cases h
            rw [hw] at hw'
            cases hw'
      | false =>
        exact ⟨fun _ => .inr ⟨w, rfl, hw⟩, fun _ => (if_neg (by simp [hw])).trans (if_pos he)⟩

/--
An empty value next to a value that is no container makes no difference to any kind. Next to a
container it makes one exactly where the container alone has no level left, and, where a container
is wanted and the empty value comes second, exactly where the first refers to nothing.
-/
theorem convertBothTo_isEmpty_iff (ctx : Context) (k : Kind) (x : Value) (he : e.isEmpty = true) :
    (x.container? = none →
      ctx.convertBothTo k e x = ctx.convertTo k x ∧
        ctx.convertBothTo k x e = ctx.convertTo k x) ∧
    (ctx.convertBothTo k e x = ctx.convertTo k x ↔ ¬ ctx.RunsShort k x) ∧
    (ctx.convertBothTo k x e = ctx.convertTo k x ↔
      ¬ ctx.RunsShort k x ∧ (k = .container → ctx.Refers x)) := by
  by_cases hk : k = .container
  · subst hk
    have hleft : ctx.convertBothTo .container e x = ctx.convertTo .container x :=
      convertEither_left .container he x
    have hshort := not_runsShort_container ctx x
    refine ⟨fun hx => ⟨hleft, convertBothTo_container_of_none he hx⟩, ?_, ?_⟩
    · exact ⟨fun _ => hshort, fun _ => hleft⟩
    · rw [convertBothTo_container_iff he]
      exact ⟨fun h => ⟨hshort, fun _ => h⟩, fun h => h.2 rfl⟩
  · have hleft : ctx.convertBothTo k e x = ctx.resolve x >>= ctx.convertTo k :=
      convertBothTo_left hk he x
    have hright : ctx.convertBothTo k x e = ctx.resolve x >>= ctx.convertTo k :=
      convertBothTo_right hk he x
    refine ⟨fun hx => ?_, ?_, ?_⟩
    · rw [hleft, hright, resolve_of_none hx]
      exact ⟨rfl, rfl⟩
    · rw [hleft, not_runsShort_iff hk]
    · rw [hright, not_runsShort_iff hk]
      exact ⟨fun h => ⟨h, fun h => absurd h hk⟩, And.left⟩

end

set_option maxRecDepth 2000 in
theorem convertBothTo_isEmpty_iff_longest :
    let ctx : Context := ⟨.standard, fun _ => some (.text ['a'])⟩
    let first : Address := .chunk ⟨.character, .nth 1, none⟩
    let x := (fun v => Value.part v first)^[maxDepth] (.variable ['x'])
    Value.empty.isEmpty = true ∧
      ctx.convertTo .text x = .error .tooDeep ∧
      (ctx.convertBothTo .text .empty x).toOption.bind Value.text? = some ['a'] ∧
      ctx.RunsShort .text x := by
  intro ctx first x
  have hempty : Value.empty.isEmpty = true := rfl
  have hshort : ctx.convertTo .text x = .error .tooDeep := rfl
  have hboth : (ctx.convertBothTo .text .empty x).toOption.bind Value.text? = some ['a'] := by
    decide +kernel
  refine ⟨hempty, hshort, hboth, not_not.1 fun h => ?_⟩
  rw [(convertBothTo_isEmpty_iff ctx .text x hempty).2.1.2 h, hshort] at hboth
  cases hboth

theorem convertBothTo_container_nil :
    let s : Store := ⟨[(['x'], ⟨['x'], .text, .text []⟩)], [], .standard⟩
    s.context.convertTo .container (.variable ['x']) = .ok (.variable ['x']) ∧
      s.context.convertBothTo .container (.variable ['x']) .empty =
        .error (.coercionFailed .container) := by
  intro s
  have hlower : Text.lower ['x'] = ['x'] := by decide +kernel
  have hget : s.get? ['x'] = some (.text []) :=
    congrArg (Option.map Slot.value) (Store.slot?_singleton hlower .text (.text []) .standard)
  have hread : s.context.outer.read (.variable ['x']) = .ok (.text []) := by
    change Except.ok ((s.get? ['x']).getD _) = _
    rw [hget]
    rfl
  have hx : s.context.resolve (.variable ['x']) = .ok (.text []) :=
    Access.resolve_of_read rfl hread rfl
  refine ⟨rfl, ?_⟩
  change s.context.convertEither .container (.variable ['x']) .empty = _
  rw [convertEither, hx]
  rfl

end Context

end ScriptValue
