import ScriptValue.Store.Sort

namespace ScriptValue

inductive Command where
  | coerce (k : Kind)
  | count (k : ChunkKind)
  | chunk (spec : ChunkSpec)
  | sort (style : SortStyle) (direction : SortDirection)
  | entry (key : Text)
  deriving DecidableEq, Repr

structure Invocation where
  command : Command
  config : Config
  path : Option Text
  deriving DecidableEq, Repr

inductive UsageError where
  | numberFormat (e : NumberError)
  | itemDelimiter (t : Text)
  | lineEnding (t : Text)
  | unknownOption (t : Text)
  | missing (what : String)
  | unknownKind (t : Text)
  | unknownChunkKind (t : Text)
  | firstIndex
  | unknownEntryCommand (t : Text)
  | unknownCommand (t : Text)
  | unexpected (t : Text)
  deriving DecidableEq, Repr

namespace UsageError

def message : UsageError → String
  | numberFormat e => "invalid --number-format: " ++ e.message
  | itemDelimiter t => "item delimiter must be one character, got '" ++ String.ofList t ++ "'"
  | lineEnding t => (ValueError.unknownLineEnding t).message
  | unknownOption t => "unknown option '" ++ String.ofList t ++ "'"
  | missing what => "missing " ++ what
  | unknownKind t => (ValueError.unknownKind t).message
  | unknownChunkKind t => ChunkKind.unknownMessage t
  | firstIndex => "first index must be a number, 'last' or 'middle'"
  | unknownEntryCommand t => "unknown dict subcommand '" ++ String.ofList t ++ "'"
  | unknownCommand t => "unknown command '" ++ String.ofList t ++ "'"
  | unexpected t => "unexpected argument '" ++ String.ofList t ++ "'"

end UsageError

namespace Arguments

structure Settings where
  config : Config
  direction : SortDirection
  deriving DecidableEq, Repr

def Settings.standard : Settings := ⟨.standard, .ascending⟩

def readDelimiter (t : Text) : Except UsageError Char :=
  if t = "\\t".toList ∨ t = "tab".toList then .ok '\t'
  else if t = "\\n".toList then .ok '\n'
  else match t with
    | [c] => .ok c
    | _ => .error (.itemDelimiter t)

def isOption (t : Text) : Bool := "--".toList.isPrefixOf t

def valueOf? (name : String) (t : Text) : Option Text := name.toList.isPrefixOf? t

def applyOption (s : Settings) (t : Text) : Except UsageError Settings :=
  match valueOf? "--number-format=" t, valueOf? "--item-delimiter=" t,
      valueOf? "--line-ending=" t with
  | some v, _, _ =>
    match NumberFormat.parse v with
    | .ok f => .ok { s with config := { s.config with numberFormat := f } }
    | .error e => .error (.numberFormat e)
  | _, some v, _ => (readDelimiter v).map fun d => { s with config := s.config.withItem d }
  | _, _, some v =>
    match LineEnding.ofName? v with
    | some e => .ok { s with config := { s.config with lineEnding := e } }
    | none => .error (.lineEnding v)
  | _, _, _ =>
    if t = "--descending".toList then .ok { s with direction := .descending }
    else .error (.unknownOption t)

def separate (s : Settings) : List Text → Except UsageError (Settings × List Text)
  | [] => .ok (s, [])
  | t :: ts =>
    if isOption t then do separate (← applyOption s t) ts
    else (separate s ts).map fun (s, rest) => (s, t :: rest)

def readIndex? (t : Text) : Option Int :=
  let (negative, digits) := Literal.takeSign t
  if digits = [] ∨ !digits.all Char.isDigit then none
  else (Integer.ofInt (signed negative (Literal.value digits))).toWord?

def readOrdinal? (t : Text) : Option Ordinal :=
  if t.isWord "last" then some .last
  else if t.isWord "middle" || t.isWord "mid" then some .middle
  else (readIndex? t).map .nth

def take (what : String) : List Text → Except UsageError (Text × List Text)
  | [] => .error (.missing what)
  | t :: ts => .ok (t, ts)

def readChunkKind (t : Text) : Except UsageError ChunkKind :=
  match ChunkKind.ofName? t with
  | some k => .ok k
  | none => .error (.unknownChunkKind t)

def takeOptional {α : Type} (read? : Text → Option α) : List Text → Option α × List Text
  | [] => (none, [])
  | t :: ts =>
    match read? t with
    | some a => (some a, ts)
    | none => (none, t :: ts)

def readCommand (s : Settings) (args : List Text) : Except UsageError (Command × List Text) := do
  let (name, rest) ← take "command" args
  if name = "coerce".toList then
    let (t, rest) ← take "kind" rest
    match Kind.ofName? t with
    | some k => return (.coerce k, rest)
    | none => throw (.unknownKind t)
  else if name = "count".toList then
    let (t, rest) ← take "chunk kind" rest
    return (.count (← readChunkKind t), rest)
  else if name = "chunk".toList then
    let (t, rest) ← take "chunk kind" rest
    let kind ← readChunkKind t
    let (t, rest) ← take "first index" rest
    match readOrdinal? t with
    | none => throw .firstIndex
    | some first =>
      let (last, rest) := takeOptional readOrdinal? rest
      return (.chunk ⟨kind, first, last⟩, rest)
  else if name = "sort".toList then
    let (style, rest) := takeOptional SortStyle.ofName? rest
    return (.sort (style.getD .text) s.direction, rest)
  else if name = "dict".toList then
    let (t, rest) ← take "dict subcommand" rest
    if t = "get".toList then
      let (key, rest) ← take "key" rest
      return (.entry key, rest)
    else throw (.unknownEntryCommand t)
  else throw (.unknownCommand name)

def parse (args : List Text) : Except UsageError Invocation := do
  let (s, args) ← separate .standard args
  let (command, rest) ← readCommand s args
  match rest with
  | [] => return ⟨command, s.config, none⟩
  | [path] => return ⟨command, s.config, some path⟩
  | _ :: extra :: _ => throw (.unexpected extra)

end Arguments

end ScriptValue
