import ScriptValue.Coercion.Convert
import ScriptValue.Text.Lowercase

/-!
Variables with declared kinds, in scopes within scopes. Names that differ only in case are one name.
A variable is looked for from the innermost scope outwards, and whatever is stored in it is first
turned into its kind.
-/

namespace ScriptValue

variable [DateLibrary]

/-- A variable, under the name that it was first given. -/
structure Slot where
  name : Text
  kind : Kind
  value : Value

abbrev Scope := Entries Slot

structure Store where
  innermost : Scope
  /-- The scopes around the innermost, nearest first. -/
  around : List Scope
  config : Config

namespace Store

def defaultKind : Kind := .text

def ofConfig (c : Config) : Store := ⟨[], [], c⟩

def scopes (s : Store) : List Scope := s.innermost :: s.around

def depth (s : Store) : Nat := s.scopes.length

def push (s : Store) : Store := { s with innermost := [], around := s.scopes }

def pop? (s : Store) : Option Store :=
  match s.around with
  | [] => none
  | scope :: scopes => some { s with innermost := scope, around := scopes }

def slotIn? (key : Text) (scopes : List Scope) : Option Slot :=
  scopes.findSome? fun scope => scope.get? key

def slot? (s : Store) (name : Text) : Option Slot := slotIn? name.lower s.scopes

def isDeclared (s : Store) (name : Text) : Bool := (s.slot? name).isSome

def get? (s : Store) (name : Text) : Option Value := (s.slot? name).map Slot.value

def contents (s : Store) (name : Text) : Value := (s.get? name).getD (.text name)

def kind? (s : Store) (name : Text) : Option Kind := (s.slot? name).map Slot.kind

def declaredName? (s : Store) (name : Text) : Option Text := (s.slot? name).map Slot.name

def context (s : Store) : Context := ⟨s.config, s.get?⟩

def changeNearest? (key : Text) (change : Scope → Scope) : List Scope → Option (List Scope)
  | [] => none
  | scope :: scopes =>
    if scope.has key then some (change scope :: scopes)
    else (changeNearest? key change scopes).map (scope :: ·)

def change? (s : Store) (name : Text) (change : Scope → Scope) : Option Store :=
  match changeNearest? name.lower change s.scopes with
  | some (innermost :: around) => some { s with innermost := innermost, around := around }
  | _ => none

def declareSlot (s : Store) (slot : Slot) : Store :=
  { s with innermost := s.innermost.insert slot.name.lower slot }

/--
Declares a variable in the innermost scope, in the place of one that is declared there. Without a
value it holds what the empty value is turned into, or the empty value itself.
-/
def declare (s : Store) (name : Text) (kind : Option Kind) (initial : Option Value) :
    Except ValueError Store := do
  let kind := kind.getD defaultKind
  let value ← match initial with
    | some v => s.context.convertTo kind v
    | none => .ok ((s.context.convertTo kind .empty).toOption.getD .empty)
  return s.declareSlot ⟨name, kind, value⟩

def put (s : Store) (name : Text) (kind : Kind) (value : Value) : Store :=
  let change (scope : Scope) : Scope :=
    match scope.get? name.lower with
    | some slot => scope.insert name.lower { slot with value := value }
    | none => scope
  (s.change? name change).getD (s.declareSlot ⟨name, kind, value⟩)

def remove (s : Store) (name : Text) : Store :=
  (s.change? name fun scope => scope.erase name.lower).getD s

def kindFor (s : Store) (name : Text) : Kind := (s.kind? name).getD defaultKind

def current (s : Store) (name : Text) : Value := (s.get? name).getD .empty

def set (s : Store) (name : Text) (v : Value) : Except ValueError Store := do
  return s.put name (s.kindFor name) (← s.context.convertTo (s.kindFor name) v)

def prepend (s : Store) (name : Text) (v : Value) : Except ValueError Store := do
  let both ← s.context.convertBothTo (s.kindFor name) v (s.current name)
  return s.put name (s.kindFor name) both

def append (s : Store) (name : Text) (v : Value) : Except ValueError Store := do
  let both ← s.context.convertBothTo (s.kindFor name) (s.current name) v
  return s.put name (s.kindFor name) both

def assign (s : Store) (name : Text) (v : Value) : Preposition → Except ValueError Store
  | .into => s.set name v
  | .before => s.prepend name v
  | .after => s.append name v

end Store

end ScriptValue
