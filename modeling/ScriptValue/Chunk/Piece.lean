import ScriptValue.Chunk.Kind
import ScriptValue.Chunk.Unit

/-!
Cutting a sequence into chunks. A piece is a chunk with the units about it that belong to no chunk:
blanks before a word, the terminator after a line. The pieces of a sequence, put together again,
are the sequence up to the blanks that follow its last chunk.
-/

namespace ScriptValue

structure Piece (α : Type) where
  lead : List α
  body : List α
  close : List α
  deriving DecidableEq, Repr

namespace Piece

variable {α : Type}

def units (p : Piece α) : List α := p.lead ++ p.body ++ p.close

def extend (u : α) : List (Piece α) → List (Piece α)
  | [] => [⟨[], [u], []⟩]
  | p :: ps => ⟨p.lead, u :: p.body, p.close⟩ :: ps

def skip (u : α) : List (Piece α) → List (Piece α)
  | [] => []
  | p :: ps => ⟨u :: p.lead, p.body, p.close⟩ :: ps

def runs (p : α → Bool) : List α → List (Piece α)
  | [] => []
  | u :: us =>
    if p u then
      match runs p us with
      | ⟨[], body, close⟩ :: ps => ⟨[], u :: body, close⟩ :: ps
      | ps => ⟨[], [u], []⟩ :: ps
    else skip u (runs p us)

variable [ChunkUnit α]

def endsSentence (u : α) (rest : List α) : Bool :=
  ChunkUnit.isSentenceEnd u && rest.head?.all ChunkUnit.isBlank

/--
What is left of an open sentence, if one is `opened`, and the sentences after it. A sentence without
an end of its own stops at the last unit that is not blank.
-/
def sentencesFrom : Bool → List α → List α × List (Piece α)
  | _, [] => ([], [])
  | opened, u :: us =>
    if opened || !ChunkUnit.isBlank u then
      let (body, rest) :=
        if endsSentence u us then ([u], (sentencesFrom false us).2)
        else
          let (body, rest) := sentencesFrom true us
          if ChunkUnit.isBlank u && body.isEmpty then ([], rest) else (u :: body, rest)
      if opened then (body, rest) else ([], ⟨[], body, []⟩ :: rest)
    else ([], skip u (sentencesFrom false us).2)

def sentences (us : List α) : List (Piece α) := (sentencesFrom false us).2

def lines : List α → List (Piece α)
  | [] => []
  | [u] => if ChunkUnit.isLineBreak u then [⟨[], [], [u]⟩] else [⟨[], [u], []⟩]
  | u :: v :: us =>
-- a return and a feed are one break
    if ChunkUnit.isReturn u && ChunkUnit.isFeed v then ⟨[], [], [u, v]⟩ :: lines us
    else if ChunkUnit.isLineBreak u then ⟨[], [], [u]⟩ :: lines (v :: us)
    else extend u (lines (v :: us))

/-- Chunks that end at a delimiter; one at the very end opens no further chunk. -/
def delimited [DecidableEq α] (d : α) : List α → List (Piece α)
  | [] => []
  | u :: us => if u = d then ⟨[], [], [d]⟩ :: delimited d us else extend u (delimited d us)

def undelimited : List α → List (Piece α)
  | [] => []
  | us => [⟨[], us, []⟩]

def separator? (kind : ChunkKind) (d : Delimiters) : Option α :=
  match kind with
  | .line => ChunkUnit.ofChar? '\n'
  | _ => (d.forKind? kind).bind ChunkUnit.ofChar?

def cut [DecidableEq α] (kind : ChunkKind) (d : Delimiters) (us : List α) : List (Piece α) :=
  match kind with
  | .character => us.map fun u => ⟨[], [u], []⟩
  | .word => runs (fun u => !ChunkUnit.isBlank u) us
  | .sentence => sentences us
  | .paragraph => runs (fun u => !ChunkUnit.isLineBreak u) us
  | .line => lines us
  | .item | .column | .row =>
    match separator? kind d with
    | some u => delimited u us
    | none => undelimited us

end Piece

def chunks {α : Type} [DecidableEq α] [ChunkUnit α] (kind : ChunkKind) (d : Delimiters)
    (us : List α) : List (List α) := (Piece.cut kind d us).map Piece.body

end ScriptValue
