import ScriptValue.Text.Blank

namespace ScriptValue

inductive Kind where
  | empty
  | text
  | integer
  | decimal
  | number
  | boolean
  | binary
  | dictionary
  | list
  | date
  | container
  deriving DecidableEq, Repr

namespace Kind

def all : List Kind :=
  [empty, text, integer, decimal, number, boolean, binary, dictionary, list, date, container]

def name : Kind → String
  | empty => "empty"
  | text => "text"
  | integer => "integer"
  | decimal => "decimal"
  | number => "number"
  | boolean => "boolean"
  | binary => "binary"
  | dictionary => "dictionary"
  | list => "list"
  | date => "date"
  | container => "container"

def aliases : List (String × Kind) := [("string", text), ("bool", boolean), ("data", binary)]

def ofName? (t : Text) : Option Kind :=
  (all.find? fun k => t.trim.isWord k.name).orElse fun _ =>
    (aliases.find? fun a => t.trim.isWord a.1).map Prod.snd

end Kind

end ScriptValue
