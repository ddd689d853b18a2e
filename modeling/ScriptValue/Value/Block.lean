import ScriptValue.Text.Blank
import ScriptValue.Value.Basic

/-!
Dictionaries as text. A dictionary is a block between braces, with each entry `key = value` on a
line of its own and every line inside indented by a tab; `{}` has no entries. A value goes on to the
next line that starts an entry, and one that is itself a block is a dictionary again. Keys that
could be read wrongly are quoted.
-/

namespace ScriptValue

namespace Block

def separator : Text := [' ', '=', ' ']

def escape : Char → Text
  | '"' => ['\\', '"']
  | '\\' => ['\\', '\\']
  | '\n' => ['\\', 'n']
  | '\r' => ['\\', 'r']
  | '\t' => ['\\', 't']
  | c => [c]

def unescape : Char → Char
  | 'n' => '\n'
  | 'r' => '\r'
  | 't' => '\t'
  | c => c

def isSpecial (c : Char) : Bool :=
  c == '=' || c == '"' || c == '\\' || c == '\n' || c == '\r' || c == '\t'

def needsQuotes (key : Text) : Bool :=
  key.isEmpty || key.head?.any isWhiteSpace || key.getLast?.any isWhiteSpace || key.any isSpecial

def renderKey (key : Text) : Text :=
  if needsQuotes key then '"' :: key.flatMap escape ++ ['"'] else key

def indent (t : Text) : Text := (t.splitOn '\n').flatMap fun line => '\t' :: line ++ ['\n']

def renderEntry (e : Text × Text) : Text := renderKey e.1 ++ separator ++ e.2

def render (es : Entries Text) : Text :=
  if es = [] then ['{', '}']
  else '{' :: '\n' :: indent (['\n'].intercalate (es.map renderEntry)) ++ ['}']

def isBreak (c : Char) : Bool := c == '\n' || c == '\r'

def unifyBreaks : Text → Text
  | '\r' :: '\n' :: t => '\n' :: unifyBreaks t
  | c :: t => c :: unifyBreaks t
  | [] => []

def splitSeparator : Text → Option (Text × Text)
  | [] => none
  | c :: t =>
    match separator.isPrefixOf? (c :: t) with
    | some rest => some ([], rest)
    | none => (splitSeparator t).map fun p => (c :: p.1, p.2)

def readQuoted : Text → Option (Text × Text)
  | [] => none
  | '"' :: t => (separator.isPrefixOf? t).map fun rest => ([], rest)
  | ['\\'] => none
  | '\\' :: c :: t => (readQuoted t).map fun p => (unescape c :: p.1, p.2)
  | c :: t => (readQuoted t).map fun p => (c :: p.1, p.2)

def keyLine : Text → Option (Text × Text)
-- an indented line goes on with the value before it
  | '\t' :: _ => none
  | '"' :: t => readQuoted t
  | t => splitSeparator t

def unindent : Text → Option Text
  | [] => some []
  | '\t' :: t => some t
  | _ => none

def group : List Text → List Text × Entries (List Text)
  | [] => ([], [])
  | line :: lines =>
    let (more, es) := group lines
    match keyLine line with
    | some (key, rest) => ([], (key, rest :: more) :: es)
    | none => (line :: more, es)

def trimBreaks (t : Text) : Text := t.trimEndBy isBreak

def readInner (inner : Text) : Option (Entries Text) := do
  let lines ← (inner.splitOn '\n').mapM unindent
  let (before, es) := group lines
-- before the first entry only blank lines may stand
  if before.all fun line => line.trim.isEmpty then
    return es.map fun (key, lines) => (key, trimBreaks (['\n'].intercalate lines))
  else none

def isEmptyBlock (t : Text) : Bool := t == ['{', '}'] || t == ['{', '\n', '}']

def isBlock (t : Text) : Bool :=
  isEmptyBlock t || (['{', '\n'].isPrefixOf t && ['\n', '}'].isSuffixOf t)

def inner? (t : Text) : Option Text := (['{', '\n'].isPrefixOf? t).bind (['\n', '}'].isSuffixOf? ·)

variable [DateLibrary]

def readValue (read? : Text → Option Dictionary) (t : Text) : Value :=
  if isBlock t then
    match read? t with
    | some d => .dictionary d
    | none => .text t
  else .text t

def readBlock : Nat → Text → Option Dictionary
  | 0, _ => none
  | fuel + 1, t =>
    let t := t.trim
    if isEmptyBlock t then some []
    else do
      let es ← readInner (← inner? t)
      return Entries.ofList (es.map fun e => (e.1, readValue (readBlock fuel) e.2))

/-- Reads a block of any depth. Blocks cannot nest deeper than the text is long. -/
def readWhole (t : Text) : Option Dictionary := readBlock (t.length + 1) t

def parse (t : Text) : Option Dictionary := readWhole (trimBreaks (unifyBreaks t))

end Block

end ScriptValue
