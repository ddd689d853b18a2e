import ScriptValue.Chunk.Kind
import ScriptValue.Number.Format

namespace ScriptValue

inductive LineEnding where
  | lf
  | crlf
  | cr
  deriving DecidableEq, Repr

namespace LineEnding

def name : LineEnding → String
  | lf => "lf"
  | crlf => "crlf"
  | cr => "cr"

def text : LineEnding → Text
  | lf => ['\n']
  | crlf => ['\r', '\n']
  | cr => ['\r']

def ofName? (t : Text) : Option LineEnding :=
  [lf, crlf, cr].find? fun e => t.isWord e.name

end LineEnding

structure Config where
  numberFormat : NumberFormat
  delimiters : Delimiters
  lineEnding : LineEnding
  datePattern : Text
  deriving DecidableEq, Repr

namespace Config

def standardDatePattern : Text := "%Y-%m-%d %H:%M:%S".toList

def standard : Config := ⟨.standard, .standard, .lf, standardDatePattern⟩

def withItem (c : Config) (d : Char) : Config :=
  { c with delimiters := { c.delimiters with item := d } }

end Config

end ScriptValue
