import ScriptValue.Proofs.Date.Gregorian
import ScriptValue.Proofs.Store.Chain
import ScriptValue.Proofs.Store.SortKey

namespace ScriptValue

theorem mapM_eq_ok {ε α β : Type} {f : α → Except ε β} {g : α → β} {xs : List α}
    (h : ∀ x ∈ xs, f x = .ok (g x)) : xs.mapM f = .ok (xs.map g) := by
  induction xs with
  | nil => rfl
  | cons x xs ih =>
    rw [List.forall_mem_cons] at h
    rw [List.mapM_cons, h.1, ih h.2]
    rfl

theorem map_snd_sortBy {α κ : Type} (order : κ → κ → Ordering) (key : α → κ) (xs : List α) :
    (sortBy (fun a b => order a.1 b.1) (xs.map fun x => (key x, x))).map Prod.snd =
      sortBy (fun x y => order (key x) (key y)) xs := by
  have hmap : (sortBy (fun x y => order (key x) (key y)) xs).map (fun x => (key x, x)) =
      sortBy (fun a b => order a.1 b.1) (xs.map fun x => (key x, x)) :=
    List.map_mergeSort fun _ _ _ _ => rfl
  rw [← hmap, List.map_map]
  exact List.map_id _

section

variable [DateLibrary]

def SortStyle.isKeyless (style : SortStyle) (ctx : Context) (v : Value) : Bool :=
  match style with
  | .text => false
  | .numeric => v.isEmpty || (ctx.convert .number v).toOption.isNone
  | .dateTime => (ctx.convert .date v).toOption.isNone

namespace SortKey

def keyOf (ctx : Context) (style : SortStyle) (v : Value) : SortKey :=
  (ofValue ctx style v).toOption.getD (.text [] [])

variable {ctx : Context} {style : SortStyle} {v : Value}

theorem style_keyOf (ctx : Context) (style : SortStyle) (v : Value) :
    (keyOf ctx style v).style = style := by
  cases style with
  | text =>
    unfold keyOf ofValue
    cases ctx.text v <;> rfl
  | numeric => rfl
  | dateTime => rfl

theorem ofValue_eq_ok (hv : v.Plain) : ofValue ctx style v = .ok (keyOf ctx style v) := by
  cases style with
  | text =>
    obtain ⟨t, ht⟩ : ∃ t, ctx.text v = .ok t := ctx.outer.exists_textOf hv
    rw [keyOf, ofValue, ht]
    rfl
  | numeric => rfl
  | dateTime => rfl

theorem isMissing_keyOf (ctx : Context) (style : SortStyle) (v : Value) :
    (keyOf ctx style v).isMissing = style.isKeyless ctx v := by
  cases style with
  | text =>
    unfold keyOf ofValue
    cases ctx.text v <;> rfl
  | numeric =>
    change (if v.isEmpty then none else _).isNone = (v.isEmpty || _)
    cases v.isEmpty <;> rfl
  | dateTime => rfl

end SortKey

namespace Store

variable {s : Store} {name : Text} {style : SortStyle} {direction : SortDirection} {v w : Value}

def sortedByKey {α : Type} (ctx : Context) (style : SortStyle) (direction : SortDirection)
    (value : α → Value) (xs : List α) : List α :=
  sortBy (fun x y => SortKey.compare direction (SortKey.keyOf ctx style (value x))
    (SortKey.keyOf ctx style (value y))) xs

theorem sort_of_get? (h : s.get? name = some v) (hv : v.container? = none) :
    s.sort name style direction =
      arranged s.context (byKey s.context style direction) v >>= s.set name := by
  have hresolve : s.context.resolve v = .ok v := s.context.outer.resolve_of_none hv
  rw [sort, rearrange, h]
  dsimp only
  rw [hresolve, ok_bind]

section Elements

variable {α : Type} {ctx : Context} (value : α → Value) {xs : List α}

theorem byKey_eq (h : ∀ x ∈ xs, (value x).Plain) :
    byKey ctx style direction value xs = .ok (sortedByKey ctx style direction value xs) := by
  have hkeyed : xs.mapM (fun x => (SortKey.ofValue ctx style (value x)).map fun k => (k, x)) =
      .ok (xs.map fun x => (SortKey.keyOf ctx style (value x), x)) := by
    refine mapM_eq_ok fun x hx => ?_
    rw [SortKey.ofValue_eq_ok (h x hx)]
    rfl
  rw [byKey, hkeyed, ok_bind, map_snd_sortBy]
  rfl

variable [Std.TransOrd DateLibrary.Moment]

theorem stablySorted_sortedByKey (ctx : Context) (style : SortStyle) (direction : SortDirection)
    (xs : List α) :
    StablySorted (fun x y => SortKey.MayPrecede direction (SortKey.keyOf ctx style (value x))
      (SortKey.keyOf ctx style (value y))) xs (sortedByKey ctx style direction value xs) :=
  SortKey.stablySorted_sortBy_compare (fun x => SortKey.style_keyOf ctx style (value x))
    direction xs

theorem sortedByKey_of_sublist {ys : List α}
    (h : ys.Sublist (sortedByKey ctx style direction value xs)) :
    sortedByKey ctx style direction value ys = ys := by
  have hpairwise := (stablySorted_sortedByKey value ctx style direction xs).pairwise.sublist h
  refine sortBy_of_pairwise (hpairwise.imp fun hxy => ?_)
  rwa [SortKey.isLE_compare_iff]
  rw [SortKey.style_keyOf, SortKey.style_keyOf]

end Elements

theorem sort_eq_of_list {vs : List Value} (hkind : s.kind? name = some .list)
    (hget : s.get? name = some (.list vs)) (hplain : ∀ v ∈ vs, v.Plain) :
    s.sort name style direction =
      .ok (s.put name .list (.list (sortedByKey s.context style direction id vs))) := by
  rw [sort_of_get? hget rfl, arranged, byKey_eq id hplain]
  exact set_of_kind hkind

/--
Sorting a list of values without containers leaves the same values in order; those with equal keys
keep their order in either direction, and so do those without a key, which always come last.
-/
theorem sort_list [Std.TransOrd DateLibrary.Moment] {vs : List Value}
    (hkind : s.kind? name = some .list) (hget : s.get? name = some (.list vs))
    (hplain : ∀ v ∈ vs, v.Plain) (style : SortStyle) (direction : SortDirection) :
    let key := SortKey.keyOf s.context style
    ∃ s' ws, s.sort name style direction = .ok s' ∧ s'.get? name = some (.list ws) ∧
      (∀ v ∈ vs, SortKey.ofValue s.context style v = .ok (key v)) ∧ ws.Perm vs ∧
      ws.Pairwise (fun v w => SortKey.MayPrecede direction (key v) (key w)) ∧
      (∀ u, (ws.filter fun v => (key v).ties (key u)) = vs.filter fun v => (key v).ties (key u)) ∧
      ws = (ws.filter fun v => !style.isKeyless s.context v) ++
        vs.filter (style.isKeyless s.context) := by
  intro key
  obtain ⟨slot, hslot⟩ := exists_slot? hkind
  have hsorted := stablySorted_sortedByKey id s.context style direction vs
  refine ⟨_, _, sort_eq_of_list hkind hget hplain, get?_put hslot _ _,
    fun v hv => SortKey.ofValue_eq_ok (hplain v hv), hsorted.perm, hsorted.pairwise,
    SortKey.filter_ties_eq hsorted (SortKey.style_keyOf _ _), ?_⟩
  simpa only [id, SortKey.isMissing_keyOf] using SortKey.eq_append_filter_isMissing hsorted

end Store

end

namespace Store

theorem sort_list_descending :
    let two : Value := .integer (.finite 2)
    let point : Value := .decimal (.finite (.ofInt 2))
    let ten : Value := .text ['1', '0']
    let vs : List Value := [.text ['b'], two, .empty, point, ten]
    let s : Store := ⟨[(['x'], ⟨['x'], .list, .list vs⟩)], [], .standard⟩
    s.kind? ['x'] = some .list ∧ s.get? ['x'] = some (.list vs) ∧ (∀ v ∈ vs, v.Plain) ∧
      ∃ s' ws, s.sort ['x'] .numeric .descending = .ok s' ∧ s'.get? ['x'] = some (.list ws) ∧
        ws.Perm vs ∧ ws = (ws.filter fun v => !SortStyle.numeric.isKeyless s.context v) ++
          [.text ['b'], .empty] ∧
        (ws.filter fun v => (SortKey.keyOf s.context .numeric v).ties
          (SortKey.keyOf s.context .numeric two)) = [two, point] := by
  intro two point ten vs s
  have hlower : Text.lower ['x'] = ['x'] := by decide +kernel
  have hslot := slot?_singleton hlower .list (.list vs) .standard
  have hkind : s.kind? ['x'] = some .list := congrArg (Option.map Slot.kind) hslot
  have hget : s.get? ['x'] = some (.list vs) := congrArg (Option.map Slot.value) hslot
  have hplain : ∀ v ∈ vs, v.Plain := by
    simp only [vs, List.forall_mem_cons]
    exact ⟨.text _, .integer _, .empty, .decimal _, .text _, List.forall_mem_nil _⟩
  obtain ⟨s', ws, hsort, hget', -, hperm, -, hties, hkeyless⟩ :=
    sort_list hkind hget hplain .numeric .descending
  exact ⟨hkind, hget, hplain, s', ws, hsort, hget', hperm, hkeyless, hties two⟩

end Store

end ScriptValue
