import ScriptValue.Value.Error

/-!
Guards on a program that may not end. An operation that must not go on for ever holds a guard until
it is done, and fails where as many are held as there are levels; how many are held is known as the
program runs and is not a bound that it is given. A run that never ends has no outcome.
-/

namespace ScriptValue

/-- How many guards are held, and the most that were held at any time. -/
structure Guards where
  held : Nat
  most : Nat

abbrev Guarded (α : Type) := ExceptT ValueError (StateT Guards Option) α

namespace Guarded

variable {α β : Type}

def endless : Guarded α := ExceptT.mk fun _ => none

def enter : StateT Guards Option Bool := do
  let g ← get
  if g.held < maxDepth then
    set (Guards.mk (g.held + 1) (max g.most (g.held + 1)))
    return true
  else return false

def leave : StateT Guards Option Unit := modify fun g => { g with held := g.held - 1 }

def guard (m : Guarded α) : Guarded α := ExceptT.mk do
  if ← enter then
    let r ← m.run
    leave
    return r
  else return .error .tooDeep

def orElse (first second : Guarded α) : Guarded α := ExceptT.mk do
  match ← first.run with
  | .ok x => return .ok x
  | .error _ => second.run

def EndsWith (m : Guarded α) (n : Nat) (r : Except ValueError α) : Prop :=
  ∀ held most, held + n = maxDepth → most ≤ maxDepth →
    ∃ most' ≤ maxDepth, m.run.run ⟨held, most⟩ = some (r, ⟨held, most'⟩)

def Settles (m : Guarded α) (r : Except ValueError α) : Prop :=
  ∃ most ≤ maxDepth, m.run.run ⟨0, 0⟩ = some (r, ⟨0, most⟩)

variable {m other : Guarded α} {n : Nat} {r r' : Except ValueError α}

theorem endsWith_pure (n : Nat) (x : α) : EndsWith (pure x) n (.ok x) :=
  fun _ most _ hmost => ⟨most, hmost, rfl⟩

theorem endsWith_throw (n : Nat) (e : ValueError) : EndsWith (throw e : Guarded α) n (.error e) :=
  fun _ most _ hmost => ⟨most, hmost, rfl⟩

theorem EndsWith.settles (h : EndsWith m maxDepth r) : Settles m r := h 0 0 rfl (Nat.zero_le _)

theorem EndsWith.bind (hm : EndsWith m n r) {f : α → Guarded β} {g : α → Except ValueError β}
    (hf : ∀ x, EndsWith (f x) n (g x)) : EndsWith (m >>= f) n (r >>= g) := by
  intro held most hheld hmost
  obtain ⟨most', hmost', hrun⟩ := hm held most hheld hmost
  rw [ExceptT.run_bind, StateT.run_bind, hrun]
  cases r with
  | error e => exact ⟨most', hmost', rfl⟩
  | ok x => exact hf x held most' hheld hmost'

theorem EndsWith.map (hm : EndsWith m n r) (f : α → β) : EndsWith (f <$> m) n (r.map f) := by
  have h := hm.bind fun x => endsWith_pure n (f x)
  cases r <;> exact h

theorem EndsWith.orElse (hm : EndsWith m n r) (hother : EndsWith other n r') :
    EndsWith (orElse m other) n
      (match r.toOption with
      | some x => .ok x
      | none => r') := by
  intro held most hheld hmost
  obtain ⟨most', hmost', hrun⟩ := hm held most hheld hmost
  change ∃ most' ≤ maxDepth, StateT.run (m.run >>= _) _ = _
  rw [StateT.run_bind, hrun]
  cases r with
  | ok x => exact ⟨most', hmost', rfl⟩
  | error => exact hother held most' hheld hmost'

theorem endsWith_guard_zero (m : Guarded α) : EndsWith (guard m) 0 (.error .tooDeep) := by
  intro held most hheld hmost
  refine ⟨most, hmost, ?_⟩
  obtain rfl : held = maxDepth := hheld
  rfl

theorem EndsWith.guard (hm : EndsWith m n r) : EndsWith (guard m) (n + 1) r := by
  intro held most hheld hmost
  have hlt : held < maxDepth := by omega
  obtain ⟨most', hmost', hrun⟩ := hm (held + 1) (max most (held + 1)) (by omega) (by omega)
  refine ⟨most', hmost', ?_⟩
  have henter : enter.run ⟨held, most⟩ = some (true, ⟨held + 1, max most (held + 1)⟩) := by
    simp [enter, hlt]
  change StateT.run (enter >>= _) _ = _
  simp [henter, hrun, leave]

end Guarded

end ScriptValue
