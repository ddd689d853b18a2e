import ScriptValue.Chunk.Spec
import ScriptValue.Date.Library
import ScriptValue.Entries
import ScriptValue.Number.Basic
import ScriptValue.Value.Kind

namespace ScriptValue

inductive Address where
  | chunk (spec : ChunkSpec)
  | key (k : Text)
  deriving DecidableEq, Repr

def Address.render : Address → String
  | .chunk spec => spec.render
  | .key k => "entry \"" ++ String.ofList k ++ "\""

variable [DateLibrary]

inductive Value where
  | empty
  | text (t : Text)
  | integer (n : Integer)
  | decimal (d : Decimal)
  | boolean (b : Bool)
  | binary (bs : List UInt8)
  | dictionary (es : List (Text × Value))
  | list (vs : List Value)
  | date (t : DateLibrary.Moment)
  | variable (name : Text)
  | part (parent : Value) (address : Address)

inductive Container where
  | variable (name : Text)
  | part (parent : Value) (address : Address)

def Container.toValue : Container → Value
  | .variable name => .variable name
  | .part parent address => .part parent address

abbrev Dictionary := Entries Value

namespace Value

instance : Inhabited Value := ⟨.empty⟩

def kind : Value → Kind
  | .empty => .empty
  | .text _ => .text
  | .integer _ => .integer
  | .decimal _ => .decimal
  | .boolean _ => .boolean
  | .binary _ => .binary
  | .dictionary _ => .dictionary
  | .list _ => .list
  | .date _ => .date
  | .variable _ | .part _ _ => .container

def ofNumber : Number → Value
  | .integer n => .integer n
  | .decimal d => .decimal d

def isEmpty : Value → Bool
  | .empty => true
  | .text t => t.isEmpty
  | _ => false

def text? : Value → Option Text
  | .text t => some t
  | _ => none

def container? : Value → Option Container
  | .variable name => some (.variable name)
  | .part parent address => some (.part parent address)
  | _ => none

mutual
/--
Whether two values are the same. Whole numbers are never the same as decimals, and the entries of
dictionaries may come in any order.
-/
def same : Value → Value → Bool
  | .empty, .empty => true
  | .text s, .text t => s == t
  | .integer m, .integer n => m == n
  | .decimal c, .decimal d => c == d
  | .boolean a, .boolean b => a == b
  | .binary as, .binary bs => as == bs
  | .dictionary es, .dictionary fs => es.length == fs.length && sameEntries es fs
  | .list vs, .list ws => sameAll vs ws
  | .date c, .date d => c == d
  | .variable m, .variable n => m == n
  | .part v a, .part w b => v.same w && a == b
  | _, _ => false
termination_by structural v => v

def sameEntries : List (Text × Value) → List (Text × Value) → Bool
  | [], _ => true
  | (k, v) :: es, fs =>
    (match Entries.get? k fs with
      | some w => v.same w
      | none => false) && sameEntries es fs
termination_by structural es => es

def sameAll : List Value → List Value → Bool
  | [], [] => true
  | v :: vs, w :: ws => v.same w && sameAll vs ws
  | _, _ => false
termination_by structural vs => vs
end

end Value

def Dictionary.same (d e : Dictionary) : Bool := Value.same (.dictionary d) (.dictionary e)

end ScriptValue
