import ScriptValue.Main
import ScriptValue.Number.Binary64
import ScriptValue.Proofs.Entries
import ScriptValue.Proofs.Block.KeyLine
import ScriptValue.Proofs.Block.Lines
import ScriptValue.Proofs.Block.Render
import ScriptValue.Proofs.Block.Read
import ScriptValue.Proofs.Block.RoundTrip
import ScriptValue.Proofs.Chunk.Layout
import ScriptValue.Proofs.Chunk.Sentence
import ScriptValue.Proofs.Chunk.Bounds
import ScriptValue.Proofs.Chunk.Subrange
import ScriptValue.Proofs.Chunk.Replace
import ScriptValue.Proofs.Chunk.Extend
import ScriptValue.Proofs.Chunk.Update
import ScriptValue.Proofs.Chunk.Nested
import ScriptValue.Proofs.Chunk.Removal
import ScriptValue.Proofs.Chunk.Delete
import ScriptValue.Proofs.Chunk.Append
import ScriptValue.Proofs.Chunk.Separators
import ScriptValue.Proofs.Chunk.Emptying
import ScriptValue.Proofs.Text.Ascii
import ScriptValue.Proofs.Chunk.Encoding
import ScriptValue.Proofs.Chunk.Bytes
import ScriptValue.Proofs.Coercion.Reading
import ScriptValue.Proofs.Coercion.Kinds
import ScriptValue.Proofs.Store.Slots
import ScriptValue.Proofs.Store.Run
import ScriptValue.Proofs.Store.Typing
import ScriptValue.Proofs.Store.Chain
import ScriptValue.Proofs.Coercion.Singleton
import ScriptValue.Proofs.Coercion.Levels
import ScriptValue.Proofs.Coercion.Neutral
import ScriptValue.Proofs.Store.Frame
import ScriptValue.Proofs.Store.Shadowing
import ScriptValue.Proofs.Store.Alike
import ScriptValue.Proofs.Store.Undeclared
import ScriptValue.Proofs.Number.Embedding
import ScriptValue.Proofs.Number.Exact
import ScriptValue.Proofs.Number.Same
import ScriptValue.Proofs.Number.Positional
import ScriptValue.Proofs.Coercion.Joining
import ScriptValue.Proofs.Coercion.InTurn
import ScriptValue.Proofs.Store.Joining
import ScriptValue.Proofs.Coercion.Guarded
import ScriptValue.Proofs.Coercion.Cycle
import ScriptValue.Proofs.Store.Guarded
import ScriptValue.Proofs.Number.Denotation
import ScriptValue.Proofs.Number.Rounding
import ScriptValue.Proofs.Number.Arithmetic
import ScriptValue.Proofs.Number.Laws
import ScriptValue.Proofs.Number.RoundTo
import ScriptValue.Proofs.Number.Grammar
import ScriptValue.Proofs.Number.Reading
import ScriptValue.Proofs.Number.WholeNumeral
import ScriptValue.Proofs.Number.Format
import ScriptValue.Proofs.Number.Order
import ScriptValue.Proofs.Number.Fields
import ScriptValue.Proofs.Store.Path
import ScriptValue.Proofs.Chunk.Rejoin
import ScriptValue.Proofs.Chunk.Delimited
import ScriptValue.Proofs.Chunk.Lines
import ScriptValue.Proofs.Chunk.Runs
import ScriptValue.Proofs.Chunk.Coherence
import ScriptValue.Proofs.Store.SortKey
import ScriptValue.Proofs.Store.Sorting
import ScriptValue.Proofs.Store.SortLines
import ScriptValue.Proofs.Entries.Merge
import ScriptValue.Proofs.Value.Same
import ScriptValue.Proofs.Value.Dictionary
import ScriptValue.Proofs.Block.Keys
import ScriptValue.Proofs.Number.Integral
import ScriptValue.Proofs.Date.Unix
import ScriptValue.Proofs.Date.Gregorian
import ScriptValue.Proofs.Coercion.Date
import ScriptValue.Proofs.Coercion.Whole
import ScriptValue.Proofs.CommandLine.Options
