import ScriptValue.Chunk.Segmentation
import ScriptValue.Value.Basic

namespace ScriptValue

def ChunkKind.isElement : ChunkKind → Bool
  | .line | .item | .column | .row => true
  | _ => false

namespace Elements

variable [DateLibrary]

def range (spec : ChunkSpec) (length : Nat) : Span :=
  let (first, last) := spec.clampedBounds length
  if length < first then ⟨length, length⟩
  else if last < first then ⟨first - 1, first - 1⟩
  else ⟨first - 1, min last length⟩

def extract (spec : ChunkSpec) (vs : List Value) : Value :=
  match (range spec vs.length).slice vs with
  | [] => .empty
  | [v] => v
  | several => .list several

def splice (spec : ChunkSpec) (preposition : Preposition) (v : Value) (vs : List Value) :
    List Value :=
  let first := (spec.clampedBounds vs.length).1
  if vs.length < first then vs ++ List.replicate (first - 1 - vs.length) .empty ++ [v]
  else
    let r := range spec vs.length
    let cut : Span := match preposition with
      | .into => r
      | .before => ⟨r.start, r.start⟩
      | .after => ⟨r.stop, r.stop⟩
    vs.take cut.start ++ v :: vs.drop cut.stop

def delete (spec : ChunkSpec) (vs : List Value) : List Value :=
  let r := range spec vs.length
  vs.take r.start ++ vs.drop r.stop

end Elements

end ScriptValue
