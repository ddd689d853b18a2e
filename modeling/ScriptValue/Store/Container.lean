import ScriptValue.Store.Basic

namespace ScriptValue

variable [DateLibrary]

namespace Access

/-- The value of which a part is written. A variable that is not declared is empty. -/
def currentParent (a : Access) (parent : Value) : Except ValueError Value :=
  match parent with
  | .variable name =>
    match a.context.lookup? name with
    | some v => a.resolve v
    | none => .ok .empty
  | v => a.resolve v

def contents (a : Access) (v : Value) : Except ValueError Value :=
  match v.container? with
  | none => .ok v
  | some c => a.read c

def writtenEntry (a : Access) (v existing : Value) : Preposition → Except ValueError Value
  | .into => a.contents v
  | .before => do
    let t ← a.textOf v
    return .text (t ++ (← a.textOf existing))
  | .after => do
    let t ← a.textOf existing
    return .text (t ++ (← a.textOf v))

def written (a : Access) (parent : Value) (address : Address) (v : Value)
    (preposition : Preposition) : Except ValueError Value := do
  let parent ← a.currentParent parent
  let delimiters := a.config.delimiters
  match address with
  | .key k =>
    let d ← a.convertValue .dictionary parent
    let entry ← a.writtenEntry v ((d.get? k).getD .empty) preposition
    return .dictionary (d.insert k entry)
  | .chunk spec =>
    match parent with
    | .dictionary _ => throw (.notAddressable spec .dictionary)
    | .binary bs =>
      let new ← a.convertValue .binary v
      return .binary (splice delimiters spec preposition new bs)
    | parent =>
      match parent, spec.kind.isElement with
      | .list vs, true => return .list (Elements.splice spec preposition (← a.contents v) vs)
      | _, _ =>
        let t ← a.textOf parent
        return .text (splice delimiters spec preposition (← a.textOf v) t)

def deleted (a : Access) (parent : Value) (address : Address) : Except ValueError Value := do
  let parent ← a.currentParent parent
  let delimiters := a.config.delimiters
  match address with
  | .key k =>
    let d ← a.convertValue .dictionary parent
    return .dictionary (d.erase k)
  | .chunk spec =>
    match parent with
    | .dictionary _ => throw (.notAddressable spec .dictionary)
    | .binary bs => return .binary (delete delimiters spec bs)
    | parent =>
      match parent, spec.kind.isElement with
      | .list vs, true => return .list (Elements.delete spec vs)
      | _, _ => return .text (delete delimiters spec (← a.textOf parent))

end Access

namespace Store

def write (s : Store) (target v : Value) (preposition : Preposition) : Except ValueError Store :=
  match target with
  | .variable name => s.assign name v preposition
  | .part parent address => do
    let updated ← s.context.within.written parent address v preposition
-- the parent, with the part in it, goes back to where it came from
    if parent.kind = .container then write s parent updated .into
    else throw (.readOnly address)
  | .text t => .error (.textNoContainer t)
  | target => .error (.kindNoContainer target.kind)

def delete (s : Store) (target : Value) : Except ValueError Store :=
  match target with
  | .variable name => s.assign name .empty .into
  | .part parent address => do
    let updated ← s.context.within.deleted parent address
    if parent.kind = .container then s.write parent updated .into
    else throw (.readOnly address)
  | .text t => .error (.textNoContainer t)
  | target => .error (.kindNoContainer target.kind)

end Store

end ScriptValue
