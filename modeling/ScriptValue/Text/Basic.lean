namespace ScriptValue

/-- Text is a list of Unicode scalar values, so that chunks, keys and digits are lists too. -/
abbrev Text := List Char

namespace Text

def trimEndBy (p : Char → Bool) (t : Text) : Text :=
  (t.reverse.dropWhile p).reverse

def trimBy (p : Char → Bool) (t : Text) : Text :=
  trimEndBy p (t.dropWhile p)

def asciiLower (t : Text) : Text := t.map Char.toLower

def isWord (name : String) (t : Text) : Bool := t.asciiLower == name.toList

def splitFirst (d : Char) : Text → Option (Text × Text)
  | [] => none
  | c :: t => if c = d then some ([], t) else (splitFirst d t).map fun p => (c :: p.1, p.2)

end Text

end ScriptValue
