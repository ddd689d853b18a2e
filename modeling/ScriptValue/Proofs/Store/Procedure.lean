import ScriptValue.Proofs.Store.Run

/-!
Operations as procedures that change a store in place. A procedure that fails keeps what it has
changed until then; that the procedures here leave nothing behind when they fail is seen from what
they are when they are run: each does what the operation does to a store, or fails as it does and
has changed nothing.
-/

namespace ScriptValue

variable [DateLibrary]

abbrev Procedure (α : Type) := ExceptT ValueError (StateM Store) α

namespace Procedure

variable {α β : Type}

def runOn (p : Procedure α) (s : Store) : Except ValueError α × Store := p.run.run s

def reading (f : Store → Except ValueError α) : Procedure α := do
  MonadExcept.ofExcept (f (← get))

def set (name : Text) (v : Value) : Procedure Unit := do
  let kind ← reading fun s => .ok (s.kindFor name)
  let converted ← reading fun s => s.context.convertTo kind v
  modify fun s => s.put name kind converted

def prepend (name : Text) (v : Value) : Procedure Unit := do
  let kind ← reading fun s => .ok (s.kindFor name)
  let current ← reading fun s => .ok (s.current name)
  let both ← reading fun s => s.context.convertBothTo kind v current
  modify fun s => s.put name kind both

def append (name : Text) (v : Value) : Procedure Unit := do
  let kind ← reading fun s => .ok (s.kindFor name)
  let current ← reading fun s => .ok (s.current name)
  let both ← reading fun s => s.context.convertBothTo kind current v
  modify fun s => s.put name kind both

def assign (name : Text) (v : Value) : Preposition → Procedure Unit
  | .into => set name v
  | .before => prepend name v
  | .after => append name v

def declare (name : Text) (kind : Option Kind) (initial : Option Value) : Procedure Unit := do
  let kind := kind.getD Store.defaultKind
  let value ← match initial with
    | some v => reading fun s => s.context.convertTo kind v
    | none => reading fun s => .ok ((s.context.convertTo kind .empty).toOption.getD .empty)
  modify fun s => s.declareSlot ⟨name, kind, value⟩

def write (target v : Value) (preposition : Preposition) : Procedure Unit :=
  match target with
  | .variable name => assign name v preposition
  | .part parent address => do
    let updated ← reading fun s => s.context.within.written parent address v preposition
    if parent.kind = .container then write parent updated .into
    else throw (.readOnly address)
  | .text t => throw (.textNoContainer t)
  | target => throw (.kindNoContainer target.kind)

def delete (target : Value) : Procedure Unit :=
  match target with
  | .variable name => assign name .empty .into
  | .part parent address => do
    let updated ← reading fun s => s.context.within.deleted parent address
    if parent.kind = .container then write parent updated .into
    else throw (.readOnly address)
  | .text t => throw (.textNoContainer t)
  | target => throw (.kindNoContainer target.kind)

def rearrange (name : Text) (arrange : Context → Store.Arrangement) : Procedure Unit := do
  let v ← reading fun s => match s.get? name with
    | some v => .ok v
    | none => .error (.undeclared name)
  let resolved ← reading fun s => s.context.resolve v
  let arranged ← reading fun s => Store.arranged s.context (arrange s.context) resolved
  set name arranged

def ofOperation : Operation → Procedure Unit
  | .push => modify Store.push
  | .pop => modify fun s => s.pop?.getD s
  | .declare name kind initial => declare name kind initial
  | .set name v => set name v
  | .prepend name v => prepend name v
  | .append name v => append name v
  | .assign name v preposition => assign name v preposition
  | .remove name => modify fun s => s.remove name
  | .sort name style direction => rearrange name fun ctx => Store.byKey ctx style direction
  | .sortChunks name order => rearrange name fun _ => Store.byOrder order
  | .write target v preposition => write target v preposition
  | .delete target => delete target
  | .configure c => modify fun s => { s with config := c }

def settled (s : Store) : Except ValueError Store → Except ValueError Unit × Store
  | .ok s' => (.ok (), s')
  | .error e => (.error e, s)

theorem runOn_reading_ok (f : Store → α) (p : α → Procedure β) (s : Store) :
    (reading (fun s => .ok (f s)) >>= p).runOn s = (p (f s)).runOn s := rfl

theorem runOn_reading {f : Store → Except ValueError α} {p : α → Procedure Unit} {s : Store}
    {g : α → Except ValueError Store} (h : ∀ x, (p x).runOn s = settled s (g x)) :
    (reading f >>= p).runOn s = settled s (f s >>= g) := by
  change runOn (MonadExcept.ofExcept (f s) >>= p) s = _
  cases f s with
  | error => rfl
  | ok x => exact h x

theorem runOn_ite {c : Prop} [Decidable c] {p q : Procedure Unit} {s : Store}
    {r t : Except ValueError Store} (hp : p.runOn s = settled s r) (hq : q.runOn s = settled s t) :
    (if c then p else q).runOn s = settled s (if c then r else t) := by
  split
  · exact hp
  · exact hq

theorem runOn_set (name : Text) (v : Value) (s : Store) :
    (set name v).runOn s = settled s (s.set name v) := by
  rw [set, runOn_reading_ok]
  exact runOn_reading fun _ => rfl

theorem runOn_prepend (name : Text) (v : Value) (s : Store) :
    (prepend name v).runOn s = settled s (s.prepend name v) := by
  rw [prepend, runOn_reading_ok, runOn_reading_ok]
  exact runOn_reading fun _ => rfl

theorem runOn_append (name : Text) (v : Value) (s : Store) :
    (append name v).runOn s = settled s (s.append name v) := by
  rw [append, runOn_reading_ok, runOn_reading_ok]
  exact runOn_reading fun _ => rfl

theorem runOn_assign (name : Text) (v : Value) (p : Preposition) (s : Store) :
    (assign name v p).runOn s = settled s (s.assign name v p) := by
  cases p with
  | into => exact runOn_set name v s
  | before => exact runOn_prepend name v s
  | after => exact runOn_append name v s

theorem runOn_declare (name : Text) (kind : Option Kind) (initial : Option Value) (s : Store) :
    (declare name kind initial).runOn s = settled s (s.declare name kind initial) := by
  cases initial with
  | none => rfl
  | some v => exact runOn_reading fun _ => rfl

theorem runOn_write (target v : Value) (p : Preposition) (s : Store) :
    (write target v p).runOn s = settled s (s.write target v p) := by
  induction target, v, p using Store.write.induct with
  | case1 v p name => exact runOn_assign name v p s
  | case2 v p parent address ih =>
    rw [write, Store.write]
    exact runOn_reading fun updated => runOn_ite (ih updated) rfl
  | case3 => rfl
  | case4 v p target hvariable hpart htext =>
    rw [write, Store.write]
    · rfl
    all_goals assumption

theorem runOn_delete (target : Value) (s : Store) :
    (delete target).runOn s = settled s (s.delete target) := by
  unfold delete
  split
  case h_1 name => exact runOn_assign name .empty .into s
  case h_2 parent address =>
    exact runOn_reading fun updated => runOn_ite (runOn_write parent updated .into s) rfl
  case h_3 => rfl
  case h_4 =>
    rw [Store.delete]
    · rfl
    all_goals assumption

theorem runOn_rearrange (name : Text) (arrange : Context → Store.Arrangement) (s : Store) :
    (rearrange name arrange).runOn s = settled s (s.rearrange name (arrange s.context)) := by
  have hrearrange : s.rearrange name (arrange s.context) =
      (match s.get? name with | some v => .ok v | none => .error (.undeclared name)) >>= fun v =>
        s.context.resolve v >>= fun resolved =>
          Store.arranged s.context (arrange s.context) resolved >>= s.set name := by
    rw [Store.rearrange]
    cases s.get? name <;> rfl
  rw [hrearrange]
  exact runOn_reading fun _ => runOn_reading fun _ => runOn_reading fun w => runOn_set name w s

theorem runOn_ofOperation (o : Operation) (s : Store) :
    (ofOperation o).runOn s = settled s (s.perform o) := by
  cases o with
  | push => rfl
  | pop => rfl
  | declare name kind initial => exact runOn_declare name kind initial s
  | set name v => exact runOn_set name v s
  | prepend name v => exact runOn_prepend name v s
  | append name v => exact runOn_append name v s
  | assign name v p => exact runOn_assign name v p s
  | remove => rfl
  | sort name style direction =>
    exact runOn_rearrange name (fun ctx => Store.byKey ctx style direction) s
  | sortChunks name order => exact runOn_rearrange name (fun _ => Store.byOrder order) s
  | write target v p => exact runOn_write target v p s
  | delete target => exact runOn_delete target s
  | configure => rfl

end Procedure

end ScriptValue
