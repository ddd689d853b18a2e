import ScriptValue.CommandLine.Arguments
import ScriptValue.Date.Reader
import ScriptValue.Store.Container

namespace ScriptValue

namespace Command

def sortName : Text := "input".toList

def dropFinalBreak (t : Text) : Text :=
  ((['\r', '\n'].isSuffixOf? t).orElse fun _ => ['\n'].isSuffixOf? t).getD t

def run (command : Command) (config : Config) (input : Text) : Except ValueError Text := do
  let ctx := Context.ofConfig config
  match command with
  | .coerce k => ctx.text (← ctx.convertTo k (.text (dropFinalBreak input)))
  | .count k => return Nat.toDigits 10 (chunks k config.delimiters input).length
  | .chunk spec => ctx.text (.part (.text input) (.chunk spec))
  | .sort style direction =>
    let s ← (Store.ofConfig config).set sortName (.text (dropFinalBreak input))
    let s ← s.sort sortName style direction
    s.context.text (s.contents sortName)
  | .entry key =>
    let d ← ctx.convert .dictionary (.text input)
    ctx.text (.part (.dictionary d) (.key key))

end Command

end ScriptValue
