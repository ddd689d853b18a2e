import ScriptValue.Text.Basic

namespace ScriptValue

namespace Utf8

def encode (t : Text) : List UInt8 := t.flatMap String.utf8EncodeChar

def replacement : Char := '\uFFFD'

/--
A character of which the first bytes have been read: how many bytes are to come, which values the
next one may have, and the bits so far.
-/
structure Pending where
  left : Nat
  low : UInt8
  high : UInt8
  code : Nat

def start (b : UInt8) : List Char × Option Pending :=
  if b < 0x80 then ([Char.ofNat b.toNat], none)
  else if 0xC2 ≤ b && b ≤ 0xDF then ([], some ⟨1, 0x80, 0xBF, b.toNat - 0xC0⟩)
  else if b == 0xE0 then ([], some ⟨2, 0xA0, 0xBF, 0⟩)
  else if b == 0xED then ([], some ⟨2, 0x80, 0x9F, 0x0D⟩)
  else if 0xE1 ≤ b && b ≤ 0xEF then ([], some ⟨2, 0x80, 0xBF, b.toNat - 0xE0⟩)
  else if b == 0xF0 then ([], some ⟨3, 0x90, 0xBF, 0⟩)
  else if 0xF1 ≤ b && b ≤ 0xF3 then ([], some ⟨3, 0x80, 0xBF, b.toNat - 0xF0⟩)
  else if b == 0xF4 then ([], some ⟨3, 0x80, 0x8F, 4⟩)
  else ([replacement], none)

def decodeFrom : Option Pending → List UInt8 → Text
  | none, [] => []
  | some _, [] => [replacement]
  | none, b :: bs => (start b).1 ++ decodeFrom (start b).2 bs
  | some p, b :: bs =>
    if p.low ≤ b && b ≤ p.high then
      let code := p.code * 64 + (b.toNat - 0x80)
      if p.left = 1 then Char.ofNat code :: decodeFrom none bs
      else decodeFrom (some ⟨p.left - 1, 0x80, 0xBF, code⟩) bs
-- what is pending was cut short, and this byte starts over
    else replacement :: (start b).1 ++ decodeFrom (start b).2 bs

def decode (bs : List UInt8) : Text := decodeFrom none bs

end Utf8

end ScriptValue
