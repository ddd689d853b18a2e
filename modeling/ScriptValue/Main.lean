import ScriptValue.CommandLine.Run

namespace ScriptValue

def usage : String :=
  "Usage: <command> [options] [file]\n\n" ++
  "Commands:\n" ++
  "  coerce <kind>                    Convert the input to a value kind\n" ++
  "  count <chunk-kind>               Count characters, words, lines, items, ...\n" ++
  "  chunk <chunk-kind> <first> [<last>]\n" ++
  "                                   Print the addressed chunks\n" ++
  "  sort [text|numeric|datetime]     Sort the input's lines\n" ++
  "  dict get <key>                   Read a dictionary entry\n\n" ++
  "Options:\n" ++
  "  --number-format=<pattern>   Number rendering, e.g. 0.00 (default: 0.######)\n" ++
  "  --item-delimiter=<char>     Item delimiter (default: ,)\n" ++
  "  --line-ending=<lf|crlf|cr>  Line ending used when joining lines\n" ++
  "  --descending                Sort in descending order\n\n" ++
  "Input is read from stdin when no file is given."

partial def readLines (stream : IO.FS.Stream) (before : String) : IO String := do
  let line ← stream.getLine
  if line.isEmpty then return before else readLines stream (before ++ line)

def readInput (path : Option Text) : IO String := do
  match path with
  | some path => IO.FS.readFile (String.ofList path)
  | none => readLines (← IO.getStdin) ""

end ScriptValue

open ScriptValue

def main (args : List String) : IO UInt32 := do
  if args.isEmpty || args.contains "--help" || args.contains "-h" then
    IO.eprintln usage
    return 0
  match Arguments.parse (args.map String.toList) with
  | .error e =>
    IO.eprintln ("error: " ++ e.message ++ "\n\n" ++ usage)
    return 2
  | .ok invocation =>
    let input ← try readInput invocation.path
      catch e =>
        IO.eprintln ("error: cannot read the input: " ++ toString e)
        return 1
    match invocation.command.run invocation.config input.toList with
    | .ok output =>
      IO.println (String.ofList output)
      return 0
    | .error e =>
      IO.eprintln ("error: " ++ e.message)
      return 1
