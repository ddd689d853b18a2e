import ScriptValue.Chunk.Segmentation
import ScriptValue.Chunk.Spec

namespace ScriptValue

namespace Segmentation

variable {α : Type}

/--
The units from the first chunk meant to the end of the last; nothing, at the first chunk, where the
bounds are the wrong way round, and nothing at the end, where the first chunk does not exist.
-/
def range (s : Segmentation α) (spec : ChunkSpec) : Span :=
  let (first, last) := spec.clampedBounds s.count
  if s.count < first then ⟨s.length, s.length⟩
  else if last < first then ⟨(s.span first).start, (s.span first).start⟩
  else ⟨(s.span first).start, (s.span (min last s.count : Nat)).stop⟩

def extract (s : Segmentation α) (spec : ChunkSpec) : List α := (s.range spec).slice s.units

def replace (s : Segmentation α) (c : Span) (units : List α) : List α :=
  s.units.take c.start ++ units ++ s.units.drop c.stop

/--
The separators between the sequence and a chunk `n` past its last: one for each chunk in between,
and one more to close the last chunk where that is open.
-/
def padding [DecidableEq α] [ChunkUnit α] (s : Segmentation α) (n : Nat) : List α :=
  match s.separator? with
  | none => []
  | some u =>
    let toClose := if s.units = [] || s.isClosed then 0 else 1
    List.replicate (n - s.count - 1 + toClose) u

def place (s : Segmentation α) (spec : ChunkSpec) (preposition : Preposition) : Span :=
  let r := s.range spec
  match preposition with
  | .into => r
  | .before => ⟨r.start, r.start⟩
  | .after => ⟨r.stop, r.stop⟩

def splice [DecidableEq α] [ChunkUnit α] (s : Segmentation α) (spec : ChunkSpec)
    (preposition : Preposition) (units : List α) : List α :=
  let first := (spec.clampedBounds s.count).1
-- behind the last chunk nothing is replaced, whatever the preposition
  if s.count < first then s.units ++ s.padding first ++ units
  else s.replace (s.place spec preposition) units

/--
What a deletion takes, where there is something to take: the chunks meant with the separator after
them, or with the one before them where they are the last chunks.
-/
def removal? (s : Segmentation α) (spec : ChunkSpec) : Option Span :=
  let (first, last) := spec.clampedBounds s.count
  if s.count < first ∨ last < first then none
  else if last < s.count then some ⟨(s.span first).start, s.start (last + 1)⟩
  else if 1 < first then some ⟨(s.span (first - 1 : Nat)).stop, (s.span s.count).stop⟩
  else some ⟨(s.span first).start, (s.span s.count).stop⟩

def delete (s : Segmentation α) (spec : ChunkSpec) : List α :=
  match s.removal? spec with
  | none => s.units
  | some c => s.replace c []

end Segmentation

variable {α : Type} [DecidableEq α] [ChunkUnit α]

def extract (d : Delimiters) (spec : ChunkSpec) (us : List α) : List α :=
  (Segmentation.of spec.kind d us).extract spec

def splice (d : Delimiters) (spec : ChunkSpec) (preposition : Preposition) (units us : List α) :
    List α :=
  (Segmentation.of spec.kind d us).splice spec preposition units

def delete (d : Delimiters) (spec : ChunkSpec) (us : List α) : List α :=
  (Segmentation.of spec.kind d us).delete spec

end ScriptValue
