import ScriptValue.Date.Reader
import ScriptValue.Proofs.Coercion.Cycle
import ScriptValue.Proofs.Coercion.Guarded
import ScriptValue.Proofs.Store.Slots
import ScriptValue.Store.Container

namespace ScriptValue

section

variable [DateLibrary]

namespace Guarded

namespace Reader

def currentParent (r : Reader) (parent : Value) : Guarded Value :=
  match parent with
  | .variable name =>
    match r.context.lookup? name with
    | some v => r.resolve v
    | none => return .empty
  | v => r.resolve v

def contents (r : Reader) (v : Value) : Guarded Value :=
  match v.container? with
  | none => return v
  | some c => r.read c

def writtenEntry (r : Reader) (v existing : Value) : Preposition → Guarded Value
  | .into => r.contents v
  | .before => do
    let t ← r.textOf v
    return .text (t ++ (← r.textOf existing))
  | .after => do
    let t ← r.textOf existing
    return .text (t ++ (← r.textOf v))

def written (r : Reader) (parent : Value) (address : Address) (v : Value)
    (preposition : Preposition) : Guarded Value := do
  let parent ← r.currentParent parent
  let delimiters := r.config.delimiters
  match address with
  | .key k =>
    let d ← r.convertValue .dictionary parent
    let entry ← r.writtenEntry v ((d.get? k).getD .empty) preposition
    return .dictionary (d.insert k entry)
  | .chunk spec =>
    match parent with
    | .dictionary _ => throw (.notAddressable spec .dictionary)
    | .binary bs =>
      let new ← r.convertValue .binary v
      return .binary (splice delimiters spec preposition new bs)
    | parent =>
      match parent, spec.kind.isElement with
      | .list vs, true => return .list (Elements.splice spec preposition (← r.contents v) vs)
      | _, _ =>
        let t ← r.textOf parent
        return .text (splice delimiters spec preposition (← r.textOf v) t)

def deleted (r : Reader) (parent : Value) (address : Address) : Guarded Value := do
  let parent ← r.currentParent parent
  let delimiters := r.config.delimiters
  match address with
  | .key k =>
    let d ← r.convertValue .dictionary parent
    return .dictionary (d.erase k)
  | .chunk spec =>
    match parent with
    | .dictionary _ => throw (.notAddressable spec .dictionary)
    | .binary bs => return .binary (delete delimiters spec bs)
    | parent =>
      match parent, spec.kind.isElement with
      | .list vs, true => return .list (Elements.delete spec vs)
      | _, _ => return .text (delete delimiters spec (← r.textOf parent))

variable {r : Reader} {a : Access} {n : Nat}

theorem Counts.currentParent (h : r.Counts a n) (parent : Value) :
    EndsWith (r.currentParent parent) n (a.currentParent parent) := by
  cases parent with
  | «variable» name =>
    rw [Reader.currentParent, Access.currentParent, h.context_eq]
    cases a.context.lookup? name with
    | some v => exact h.resolve v
    | none => exact endsWith_pure n _
  | _ => exact h.resolve _

theorem Counts.contents (h : r.Counts a n) (v : Value) :
    EndsWith (r.contents v) n (a.contents v) := by
  rw [Reader.contents, Access.contents]
  cases v.container? with
  | none => exact endsWith_pure n v
  | some c => exact h.read c

theorem Counts.writtenEntry (h : r.Counts a n) (v existing : Value) (p : Preposition) :
    EndsWith (r.writtenEntry v existing p) n (a.writtenEntry v existing p) := by
  cases p with
  | into => exact h.contents v
  | before => exact (h.textOf v).bind fun t => (h.textOf existing).bind fun u => endsWith_pure n _
  | after => exact (h.textOf existing).bind fun t => (h.textOf v).bind fun u => endsWith_pure n _

theorem Counts.written (h : r.Counts a n) (parent : Value) (address : Address) (v : Value)
    (p : Preposition) :
    EndsWith (r.written parent address v p) n (a.written parent address v p) := by
  unfold Reader.written Access.written
  rw [h.config_eq]
  refine (h.currentParent parent).bind fun parent => ?_
  cases address with
  | key k =>
    exact (h.convertValue .dictionary parent).bind fun d =>
      (h.writtenEntry v _ p).bind fun entry => endsWith_pure n _
  | chunk spec =>
    cases parent with
    | dictionary es => exact endsWith_throw n _
    | binary bs => exact (h.convertValue .binary v).bind fun new => endsWith_pure n _
    | list vs =>
      dsimp only
      cases spec.kind.isElement with
      | true => exact (h.contents v).bind fun w => endsWith_pure n _
      | false => exact (h.textOf _).bind fun t => (h.textOf v).bind fun u => endsWith_pure n _
    | _ => exact (h.textOf _).bind fun t => (h.textOf v).bind fun u => endsWith_pure n _

theorem Counts.deleted (h : r.Counts a n) (parent : Value) (address : Address) :
    EndsWith (r.deleted parent address) n (a.deleted parent address) := by
  unfold Reader.deleted Access.deleted
  rw [h.config_eq]
  refine (h.currentParent parent).bind fun parent => ?_
  cases address with
  | key k => exact (h.convertValue .dictionary parent).bind fun d => endsWith_pure n _
  | chunk spec =>
    cases parent with
    | dictionary es => exact endsWith_throw n _
    | binary bs => exact endsWith_pure n _
    | list vs =>
      dsimp only
      cases spec.kind.isElement with
      | true => exact endsWith_pure n _
      | false => exact (h.textOf _).bind fun t => endsWith_pure n _
    | _ => exact (h.textOf _).bind fun t => endsWith_pure n _

end Reader

open Reader

def assign (d : Nat) (s : Store) (name : Text) (v : Value) (preposition : Preposition) :
    Guarded Store := do
  let r := unfolded s.context d
  let kind := s.kindFor name
  match preposition with
  | .into => return s.put name kind (← r.convertTo kind v)
  | .before => return s.put name kind (← r.convertBothTo kind v (s.current name))
  | .after => return s.put name kind (← r.convertBothTo kind (s.current name) v)

def write (d : Nat) (s : Store) (target v : Value) (preposition : Preposition) : Guarded Store :=
  match target with
  | .variable name => assign d s name v preposition
  | .part parent address => do
-- the guard is given back before the parent is written
    let updated ← guard ((unfolded s.context d).written parent address v preposition)
    if parent.kind = .container then write d s parent updated .into
    else throw (.readOnly address)
  | .text t => throw (.textNoContainer t)
  | target => throw (.kindNoContainer target.kind)

def delete (d : Nat) (s : Store) (target : Value) : Guarded Store :=
  match target with
  | .variable name => assign d s name .empty .into
  | .part parent address => do
    let updated ← guard ((unfolded s.context d).deleted parent address)
    if parent.kind = .container then write d s parent updated .into
    else throw (.readOnly address)
  | .text t => throw (.textNoContainer t)
  | target => throw (.kindNoContainer target.kind)

variable {d : Nat} (hd : maxDepth < d) (s : Store)

include hd

theorem endsWith_assign (name : Text) (v : Value) (p : Preposition) :
    EndsWith (assign d s name v p) maxDepth (s.assign name v p) := by
  have hcounts : (unfolded s.context d).Counts s.context.outer maxDepth := counts_unfolded _ hd
  cases p with
  | into => exact (hcounts.convertTo _ v).bind fun w => endsWith_pure _ _
  | before => exact (hcounts.convertBothTo _ v _).bind fun w => endsWith_pure _ _
  | after => exact (hcounts.convertBothTo _ _ v).bind fun w => endsWith_pure _ _

theorem counts_within : (unfolded s.context d).Counts s.context.within (maxDepth - 1) :=
  counts_unfolded _ (Nat.lt_of_le_of_lt (Nat.sub_le _ _) hd)

theorem endsWith_write (target v : Value) (p : Preposition) :
    EndsWith (write d s target v p) maxDepth (s.write target v p) := by
  induction target, v, p using Store.write.induct with
  | case1 v p name => exact endsWith_assign hd s name v p
  | case2 v p parent address ih =>
    rw [write, Store.write]
    refine ((counts_within hd s).written parent address v p).guard.bind fun updated => ?_
    split
    · exact ih updated
    · exact endsWith_throw _ _
  | case3 => exact endsWith_throw _ _
  | case4 v p target hvariable hpart htext =>
    rw [write, Store.write]
    · exact endsWith_throw _ _
    all_goals assumption

theorem endsWith_delete (target : Value) :
    EndsWith (delete d s target) maxDepth (s.delete target) := by
  cases target with
  | «variable» name => exact endsWith_assign hd s name .empty .into
  | part parent address =>
    rw [delete, Store.delete]
    refine ((counts_within hd s).deleted parent address).guard.bind fun updated => ?_
    split
    · exact endsWith_write hd s parent updated .into
    · exact endsWith_throw _ _
  | _ => exact endsWith_throw _ _

end Guarded

namespace Store

open Guarded Guarded.Reader

theorem get?_congr {s : Store} {x y : Text} (h : x.lower = y.lower) : s.get? x = s.get? y := by
  rw [get?, get?, slot?, slot?, h]

theorem circular_of_cycle {s : Store} {m : Nat} {x : Nat → Text}
    (hclosed : (x (m + 1)).lower = (x 0).lower)
    (hnext : ∀ i ≤ m, ∃ v other, s.get? (x i) = some v ∧ Value.Holds (.variable other) v ∧
      other.lower = (x (i + 1)).lower) :
    s.context.Circular fun name => ∃ i ≤ m, name.lower = (x i).lower := by
  rintro name ⟨i, hi, hname⟩
  obtain ⟨v, other, hget, hholds, hother⟩ := hnext i hi
  refine ⟨v, other, (get?_congr hname).trans hget, hholds, ?_⟩
  cases Nat.lt_or_eq_of_le hi with
  | inl hlt => exact ⟨i + 1, hlt, hother⟩
  | inr heq => exact ⟨0, Nat.zero_le m, hother.trans (heq ▸ hclosed)⟩

/--
Whatever the variables of a store hold, reading, turning into text or into a kind, writing and
deleting come to an end with a result or an error, have given back all guards, and never hold more
of them than there are levels. But the text of a variable that leads back to itself through lists
and dictionaries is an error.
-/
theorem always_settles (s : Store) :
    (∀ d > maxDepth,
      let r := unfolded s.context d
      (∀ v, Settles (r.resolve v) (s.context.resolve v)) ∧
      (∀ v, Settles (r.textOf v) (s.context.text v)) ∧
      (∀ es, Settles (r.render es) (s.context.text (.dictionary es))) ∧
      (∀ k v, Settles (r.convertTo k v) (s.context.convertTo k v)) ∧
      (∀ k v w, Settles (r.convertBothTo k v w) (s.context.convertBothTo k v w)) ∧
      (∀ c, Settles (r.read c) (s.context.outer.read c)) ∧
      (∀ target v p, Settles (Guarded.write d s target v p) (s.write target v p)) ∧
      ∀ target, Settles (Guarded.delete d s target) (s.delete target)) ∧
    ∀ (m : Nat) (x : Nat → Text), (x (m + 1)).lower = (x 0).lower →
      (∀ i ≤ m, ∃ v other, s.get? (x i) = some v ∧ Value.Holds (.variable other) v ∧
        other.lower = (x (i + 1)).lower) →
      ∃ e, s.context.text (.variable (x 0)) = .error e := by
  constructor
  · intro d hd r
    have hcounts : r.Counts s.context.outer maxDepth := counts_unfolded _ hd
    exact ⟨fun v => (hcounts.resolve v).settles, fun v => (hcounts.textOf v).settles,
      fun es => (hcounts.textOf (.dictionary es)).settles,
      fun k v => (hcounts.convertTo k v).settles,
      fun k v w => (hcounts.convertBothTo k v w).settles, fun c => (hcounts.read c).settles,
      fun target v p => (endsWith_write hd s target v p).settles,
      fun target => (endsWith_delete hd s target).settles⟩
  · intro m x hclosed hnext
    exact (circular_of_cycle hclosed hnext).exists_text_error maxDepth ⟨0, Nat.zero_le m, rfl⟩

end Store

end

namespace Store

open Guarded Guarded.Reader

theorem always_settles_mutual :
    let s : Store := ⟨[(['a'], ⟨['a'], .list, .list [.empty, .variable ['B']]⟩),
      (['b'], ⟨['b'], .dictionary, .dictionary [(['k'], .variable ['a'])]⟩)], [], .standard⟩
    let x : Nat → Text := fun i => if i = 1 then ['b'] else ['a']
    65 > maxDepth ∧ (x 2).lower = (x 0).lower ∧
      (∀ i ≤ 1, ∃ v other, s.get? (x i) = some v ∧ Value.Holds (.variable other) v ∧
        other.lower = (x (i + 1)).lower) ∧
      ∃ e, s.context.text (.variable ['a']) = .error e ∧
        Settles ((unfolded s.context 65).textOf (.variable ['a'])) (.error e) := by
  intro s x
  have ha : Text.lower ['a'] = ['a'] := by decide +kernel
  have hb : Text.lower ['b'] = ['b'] := by decide +kernel
  have hB : Text.lower ['B'] = ['b'] := by decide +kernel
  have hgeta : s.get? ['a'] = some (.list [.empty, .variable ['B']]) := by
    rw [get?, slot?, ha]
    rfl
  have hgetb : s.get? ['b'] = some (.dictionary [(['k'], .variable ['a'])]) := by
    rw [get?, slot?, hb]
    rfl
  have hd : 65 > maxDepth := by decide
  have hclosed : (x 2).lower = (x 0).lower := rfl
  have hnext : ∀ i ≤ 1, ∃ v other, s.get? (x i) = some v ∧ Value.Holds (.variable other) v ∧
      other.lower = (x (i + 1)).lower := by
    intro i hi
    obtain rfl | rfl := Nat.le_one_iff_eq_zero_or_eq_one.1 hi
    · exact ⟨_, ['B'], hgeta, .list (by simp), hB.trans hb.symm⟩
    · exact ⟨_, ['a'], hgetb, .dictionary List.mem_cons_self, rfl⟩
  obtain ⟨e, he⟩ := (always_settles s).2 1 x hclosed hnext
  have hsettles := ((always_settles s).1 65 hd).2.1 (.variable ['a'])
  exact ⟨hd, hclosed, hnext, e, he, he ▸ hsettles⟩

end Store

end ScriptValue
