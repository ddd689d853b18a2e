import ScriptValue.Text.Basic

namespace ScriptValue

def isWhiteSpace (c : Char) : Bool :=
  let n := c.toNat
  (0x09 ≤ n && n ≤ 0x0D) || n == 0x20 || n == 0x85 || n == 0xA0 || n == 0x1680 ||
    (0x2000 ≤ n && n ≤ 0x200A) || n == 0x2028 || n == 0x2029 || n == 0x202F || n == 0x205F ||
    n == 0x3000

def isControl (c : Char) : Bool :=
  let n := c.toNat
  n ≤ 0x1F || (0x7F ≤ n && n ≤ 0x9F)

namespace Text

def trim (t : Text) : Text := t.trimBy isWhiteSpace

def trimStart (t : Text) : Text := t.dropWhile isWhiteSpace

end Text

end ScriptValue
