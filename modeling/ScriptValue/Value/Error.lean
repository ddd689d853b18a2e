import ScriptValue.Value.Basic

namespace ScriptValue

inductive ValueError where
  | coercionFailed (target : Kind)
  | unknownKind (name : Text)
  | unknownLineEnding (name : Text)
  | unknownSortStyle (name : Text)
  | textNoContainer (t : Text)
  | kindNoContainer (k : Kind)
  | undeclared (name : Text)
  | tooDeep
  | notAddressable (spec : ChunkSpec) (k : Kind)
  | readOnly (address : Address)
  deriving DecidableEq, Repr

def maxDepth : Nat := 64

namespace ValueError

def message : ValueError → String
  | coercionFailed k => "cannot convert value to " ++ k.name
  | unknownKind t => "unknown value kind '" ++ String.ofList t ++ "'"
  | unknownLineEnding t => "unknown line ending '" ++ String.ofList t ++ "'"
  | unknownSortStyle t => "unknown sort style '" ++ String.ofList t ++ "'"
  | textNoContainer t => "text \"" ++ String.ofList t ++ "\" is not a container"
  | kindNoContainer k => "a " ++ k.name ++ " value is not a container"
  | undeclared t => "variable '" ++ String.ofList t ++ "' is not declared"
  | tooDeep => "container references nest deeper than " ++ toString maxDepth ++ " levels"
  | notAddressable spec k => "cannot address " ++ spec.render ++ " of a " ++ k.name ++ " value"
  | readOnly a => "cannot write " ++ a.render ++ ": its parent is not a container"

end ValueError

end ScriptValue
