import ScriptValue.Text.Blank

namespace ScriptValue

inductive ChunkKind where
  | character
  | word
  | sentence
  | paragraph
  | line
  | item
  | column
  | row
  deriving DecidableEq, Repr

namespace ChunkKind

def all : List ChunkKind := [character, word, sentence, paragraph, line, item, column, row]

def name : ChunkKind → String
  | character => "character"
  | word => "word"
  | sentence => "sentence"
  | paragraph => "paragraph"
  | line => "line"
  | item => "item"
  | column => "column"
  | row => "row"

def isDelimited : ChunkKind → Bool
  | item | column | row => true
  | _ => false

def padsWhenExtended (k : ChunkKind) : Bool := k.isDelimited || k == line

def ofName? (t : Text) : Option ChunkKind :=
  let lower := t.trim.asciiLower
  let singular := (['s'].isSuffixOf? lower).getD lower
  if singular = "char".toList then some character
  else all.find? fun k => k.name.toList == singular

def unknownMessage (t : Text) : String := "unknown chunk kind '" ++ String.ofList t ++ "'"

end ChunkKind

structure Delimiters where
  item : Char
  column : Char
  row : Char
  deriving DecidableEq, Repr

namespace Delimiters

def standard : Delimiters := ⟨',', '\t', '\n'⟩

def forKind? (d : Delimiters) : ChunkKind → Option Char
  | .item => some d.item
  | .column => some d.column
  | .row => some d.row
  | _ => none

end Delimiters

end ScriptValue
