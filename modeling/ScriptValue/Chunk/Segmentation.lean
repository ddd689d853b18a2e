import ScriptValue.Chunk.Piece

/-!
Where the chunks of a sequence lie. Chunks are numbered from one. A number that is not positive
stands for offset zero, and one past the last chunk for the end of the sequence.
-/

namespace ScriptValue

structure Span where
  start : Nat
  stop : Nat
  deriving DecidableEq, Repr

namespace Span

def slice {α : Type} (s : Span) (us : List α) : List α := (us.take s.stop).drop s.start

end Span

def Piece.spans {α : Type} (offset : Nat) : List (Piece α) → List Span
  | [] => []
  | p :: ps =>
    let start := offset + p.lead.length
    let stop := start + p.body.length
    ⟨start, stop⟩ :: spans (stop + p.close.length) ps

structure Segmentation (α : Type) where
  units : List α
  kind : ChunkKind
  spans : List Span
  separator? : Option α
  deriving DecidableEq, Repr

namespace Segmentation

variable {α : Type}

def of [DecidableEq α] [ChunkUnit α] (kind : ChunkKind) (d : Delimiters) (us : List α) :
    Segmentation α :=
  ⟨us, kind, Piece.spans 0 (Piece.cut kind d us), Piece.separator? kind d⟩

def length (s : Segmentation α) : Nat := s.units.length

def count (s : Segmentation α) : Nat := s.spans.length

def chunk? (s : Segmentation α) (n : Int) : Option Span :=
  if n ≤ 0 then none else s.spans[n.toNat - 1]?

def start (s : Segmentation α) (n : Int) : Nat :=
  match s.chunk? n with
  | some c => c.start
  | none => if (s.count : Int) < n then s.length else 0

def stop (s : Segmentation α) (n : Int) : Nat :=
  match s.chunk? n with
  | some c => if n = s.count then c.stop else s.start (n + 1)
  | none => if (s.count : Int) < n then s.length else 0

def span (s : Segmentation α) (n : Int) : Span :=
  (s.chunk? n).getD ⟨s.start n, s.start n⟩

def get (s : Segmentation α) (n : Int) : List α := (s.span n).slice s.units

def isClosed [DecidableEq α] [ChunkUnit α] (s : Segmentation α) : Bool :=
  match s.units.getLast? with
  | none => false
  | some u => if s.kind = .line then ChunkUnit.isLineBreak u else s.separator? = some u

end Segmentation

end ScriptValue
