import ScriptValue.Date.Reader
import ScriptValue.Proofs.Store.Frame

/-!
Leaving a scope. As long as the variables that are changed are in scopes that came after it, nothing
becomes of a store with scopes pushed on it, and it is there again once they are left.
-/

namespace ScriptValue

section

variable [DateLibrary]

def Operation.changed? : Operation → Option Text
  | .remove name => some name
  | o => o.target?

namespace Store

def HasWithin (s : Store) (outer : Nat) (name : Text) : Prop :=
  ∃ i, i + outer < s.depth ∧ (s.slotAt? i name.lower).isSome = true

/--
The runs that keep within `outer` scopes. Names are declared, or they are in a scope further in when
they are changed; and scopes are left that have been pushed in the same run.
-/
inductive Confined (outer : Nat) : Store → List Operation → Prop
  | nil {s} : Confined outer s []
  | declare {s os} (name : Text) (kind : Option Kind) (initial : Option Value)
      (rest : Confined outer (s.after (.declare name kind initial)) os) :
      Confined outer s (.declare name kind initial :: os)
  | change {s o name os} (changed?_eq : o.changed? = some name) (has : s.HasWithin outer name)
      (rest : Confined outer (s.after o) os) : Confined outer s (o :: os)
  | block {s os os'} (inside : Confined outer s.push os)
      (rest : Confined outer ((s.push.run os).after .pop) os') :
      Confined outer s (.push :: os ++ .pop :: os')

structure Pushed (base : Store) (n : Nat) (s : Store) : Prop where
  drop_scopes : s.scopes.drop n = base.scopes
  config_eq : s.config = base.config

variable {base s s' : Store} {n : Nat} {name : Text} {o : Operation} {inner rest : List Scope}
  {scope new : Scope} {os : List Operation}

namespace Pushed

theorem refl (s : Store) : s.Pushed 0 s := ⟨rfl, rfl⟩

theorem eq_base (h : base.Pushed 0 s) : s = base := ext_scopes h.drop_scopes h.config_eq

theorem depth_eq (h : base.Pushed n s) : s.depth = n + base.depth := by
  have hdepth : s.depth - n = base.depth := by
    rw [depth, ← List.length_drop, h.drop_scopes, depth]
  have hbase : base.depth = base.around.length + 1 := rfl
  omega

theorem push (h : base.Pushed n s) : base.Pushed (n + 1) s.push := ⟨h.drop_scopes, h.config_eq⟩

theorem exists_pop? (h : base.Pushed (n + 1) s) : ∃ s', s.pop? = some s' ∧ base.Pushed n s' := by
  have hdrop : s.around.drop n = base.scopes := h.drop_scopes
  cases haround : s.around with
  | nil =>
    rw [haround, List.drop_nil] at hdrop
    cases hdrop
  | cons innermost around =>
    rw [haround] at hdrop
    exact ⟨{ s with innermost, around }, by rw [pop?, haround], hdrop, h.config_eq⟩

theorem after_pop (h : base.Pushed (n + 1) s) : base.Pushed n (s.after .pop) := by
  obtain ⟨s', hpop, hs'⟩ := h.exists_pop?
  rwa [after, perform, hpop]

theorem after_declare (h : base.Pushed (n + 1) s) (name : Text) (kind : Option Kind)
    (initial : Option Value) : base.Pushed (n + 1) (s.after (.declare name kind initial)) := by
  rw [after]
  cases hperform : s.perform (.declare name kind initial) with
  | error => exact h
  | ok s' =>
    obtain ⟨slot, -, rfl⟩ := exists_declareSlot_of_declare hperform
    -- the innermost scope is one of those pushed
    exact ⟨h.drop_scopes, h.config_eq⟩

theorem of_scopes (h : base.Pushed n s) (hs : s.scopes = inner ++ scope :: rest)
    (hs' : s'.scopes = inner ++ new :: rest) (hn : inner.length < n)
    (hconfig : s'.config = s.config) : base.Pushed n s' := by
  refine ⟨?_, hconfig.trans h.config_eq⟩
  obtain ⟨m, rfl⟩ := Nat.exists_eq_add_of_lt hn
  have hdrop := h.drop_scopes
  rw [hs, Nat.add_assoc, List.drop_length_add_append] at hdrop
  rw [hs', Nat.add_assoc, List.drop_length_add_append]
  exact hdrop

theorem exists_found (h : base.Pushed n s) (hname : s.HasWithin base.depth name) :
    ∃ slot inner scope outer, Found s name slot inner scope outer ∧ inner.length < n := by
  obtain ⟨i, hi, hslot⟩ := hname
  rw [h.depth_eq, Nat.add_lt_add_iff_right] at hi
  cases hfound : s.slot? name with
  | none =>
    rw [slotAt?_of_slot?_eq_none hfound] at hslot
    cases hslot
  | some slot =>
    obtain ⟨inner, scope, outer, hfound⟩ := slot?_eq_some_iff.1 hfound
    refine ⟨slot, inner, scope, outer, hfound,
      Nat.lt_of_le_of_lt (Nat.le_of_not_gt fun hlt => ?_) hi⟩
    rw [slotAt?_eq_none hfound.scopes_eq hfound.inner_eq_none hlt] at hslot
    cases hslot

theorem after_change (h : base.Pushed n s) (ho : o.changed? = some name)
    (hname : s.HasWithin base.depth name) : base.Pushed n (s.after o) := by
  obtain ⟨slot, inner, scope, outer, hfound, hn⟩ := h.exists_found hname
  rw [after]
  cases hperform : s.perform o with
  | error => exact h
  | ok s' =>
    by_cases hremove : o = .remove name
    · cases hremove
      cases hperform
      obtain ⟨hscopes, hconfig⟩ := hfound.remove
      exact h.of_scopes hfound.scopes_eq hscopes hn hconfig
    · have htarget : o.target? = some name := by
        cases o with
        | remove =>
          cases ho
          exact absurd rfl hremove
        | _ => exact ho
      obtain ⟨w, -, rfl⟩ := exists_put_of_perform htarget hperform
      obtain ⟨hscopes, hconfig⟩ := hfound.put (s.kindFor name) w
      exact h.of_scopes hfound.scopes_eq hscopes hn hconfig

theorem run (hos : Confined base.depth s os) (h : base.Pushed (n + 1) s) :
    base.Pushed (n + 1) (s.run os) := by
  induction hos generalizing n with
  | nil => exact h
  | declare name kind initial _ ih => exact ih (h.after_declare name kind initial)
  | change ho hname _ ih => exact ih (h.after_change ho hname)
  | block _ _ ihinside ihrest =>
    rw [Store.run, List.foldl_append]
-- what is pushed for the run inside is popped before the rest
    exact ihrest (ihinside h.push).after_pop

end Pushed

/--
Whatever a run does in a scope that is pushed and in the scopes in that one, the store is as it was
when the scope is left: its variables, their names and kinds, and its config.
-/
theorem pop?_run_push {s : Store} {os : List Operation} (h : Confined s.depth s.push os) :
    (s.push.run os).pop? = some s := by
  obtain ⟨s', hpop, hs'⟩ := ((Pushed.refl s).push.run h).exists_pop?
  rw [hpop, hs'.eq_base]

end Store

end

namespace Store

theorem pop?_run_push_hidden :
    let s : Store := ⟨[(['x'], ⟨['x'], .number, .integer (.finite 1)⟩)], [], .standard⟩
    let inside : List Operation :=
      [.append ['X'] (.text [',', 'c']), .declare ['y'] (some .number) none,
        .set ['y'] (.text ['z'])]
    let rest : List Operation :=
      [.write (.part (.variable ['x']) (.chunk ⟨.item, .nth 1, none⟩)) (.text ['d']) .into,
        .remove ['x']]
    let os : List Operation :=
      .declare ['x'] none (some (.text ['b'])) :: (.push :: inside ++ .pop :: rest)
    Confined s.depth s.push os ∧ (s.push.run os).pop? = some s := by
  intro s inside rest os
  have hos : Confined s.depth s.push os := by
    refine .declare _ _ _ (.block ?_ ?_)
    · exact .change rfl ⟨1, by decide +kernel, by decide +kernel⟩
        (.declare _ _ _ (.change rfl ⟨0, by decide +kernel, by decide +kernel⟩ .nil))
    · exact .change rfl ⟨0, by decide +kernel, by decide +kernel⟩
        (.change rfl ⟨0, by decide +kernel, by decide +kernel⟩ .nil)
  exact ⟨hos, pop?_run_push hos⟩

end Store

end ScriptValue
