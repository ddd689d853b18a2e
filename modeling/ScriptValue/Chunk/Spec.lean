import ScriptValue.Chunk.Kind

namespace ScriptValue

inductive Ordinal where
  | nth (n : Int)
  | last
  | middle
  deriving DecidableEq, Repr

namespace Ordinal

def maxIndex : Nat := 9223372036854775807

def resolve (count : Nat) : Ordinal → Int
  | nth n => n
  | last => min count maxIndex
  | middle => (min count maxIndex / 2 + 1 : Nat)

def render : Ordinal → String
  | nth n => toString n
  | last => "last"
  | middle => "middle"

end Ordinal

inductive Preposition where
  | into
  | before
  | after
  deriving DecidableEq, Repr

structure ChunkSpec where
  kind : ChunkKind
  first : Ordinal
  last : Option Ordinal
  deriving DecidableEq, Repr

namespace ChunkSpec

def bounds (s : ChunkSpec) (count : Nat) : Int × Int :=
  (s.first.resolve count, (s.last.getD s.first).resolve count)

def clampedBounds (s : ChunkSpec) (count : Nat) : Nat × Nat :=
-- whatever lies before the first chunk counts as the first
  (max (s.bounds count).1.toNat 1, (s.bounds count).2.toNat)

def render (s : ChunkSpec) : String :=
  s.kind.name ++ " " ++ s.first.render ++
    match s.last with
    | none => ""
    | some o => " to " ++ o.render

end ChunkSpec

end ScriptValue
