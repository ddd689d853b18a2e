import ScriptValue.Text.Blank

namespace ScriptValue

class ChunkUnit (α : Type) where
  ofChar? : Char → Option α
  isBlank : α → Bool
  isReturn : α → Bool
  isFeed : α → Bool
  isLineBreak : α → Bool
  isSentenceEnd : α → Bool
  isLineBreak_of_isReturn (u : α) : isReturn u → isLineBreak u
  isBlank_of_isSentenceEnd (u : α) : isSentenceEnd u → isBlank u = false

class LawfulChunkUnit (α : Type) [ChunkUnit α] : Prop where
  isLineBreak_of_isFeed (u : α) : ChunkUnit.isFeed u → ChunkUnit.isLineBreak u

instance : ChunkUnit Char where
  ofChar? c := some c
  isBlank c := isWhiteSpace c || isControl c
  isReturn c := c == '\r'
  isFeed c := c == '\n'
  isLineBreak c := c == '\r' || c == '\n' || c == '\u2028' || c == '\u2029'
  isSentenceEnd c := c == '.' || c == '!' || c == '?'
  isLineBreak_of_isReturn c h := by simp_all
  isBlank_of_isSentenceEnd c h := by
    simp only [Bool.or_eq_true, beq_iff_eq] at h
    rcases h with (rfl | rfl) | rfl <;> rfl

instance : LawfulChunkUnit Char where
  isLineBreak_of_isFeed c h := by simp_all [ChunkUnit.isFeed, ChunkUnit.isLineBreak]

/-- Bytes stand for the first 256 characters, and only those of ASCII have a meaning. -/
instance : ChunkUnit UInt8 where
  ofChar? c := if c.toNat < 256 then some (.ofNat c.toNat) else none
  isBlank b := b ≤ 32 || b == 127
  isReturn b := b == 13
  isFeed b := b == 10
  isLineBreak b := b == 13 || b == 10
  isSentenceEnd b := b == 46 || b == 33 || b == 63
  isLineBreak_of_isReturn b h := by simp_all
  isBlank_of_isSentenceEnd b h := by
    simp only [Bool.or_eq_true, beq_iff_eq] at h
    rcases h with (rfl | rfl) | rfl <;> rfl

instance : LawfulChunkUnit UInt8 where
  isLineBreak_of_isFeed b h := by simp_all [ChunkUnit.isFeed, ChunkUnit.isLineBreak]

end ScriptValue
