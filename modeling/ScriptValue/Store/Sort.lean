import ScriptValue.Store.Basic

namespace ScriptValue

inductive SortStyle where
  | text
  | numeric
  | dateTime
  deriving DecidableEq, Repr

namespace SortStyle

def name : SortStyle → String
  | text => "text"
  | numeric => "numeric"
  | dateTime => "datetime"

def ofName? (t : Text) : Option SortStyle :=
  [text, numeric, dateTime].find? fun s => t.isWord s.name

end SortStyle

inductive SortDirection where
  | ascending
  | descending
  deriving DecidableEq, Repr

namespace SortDirection

def name : SortDirection → String
  | ascending => "Ascending"
  | descending => "Descending"

def apply : SortDirection → Ordering → Ordering
  | ascending, o => o
  | descending, o => o.swap

end SortDirection

variable [DateLibrary]

inductive SortKey where
  | text (folded exact : Text)
  | number (n : Option Number)
  | date (t : Option DateLibrary.Moment)

def Text.compare (s t : Text) : Ordering := List.compareLex (fun c d => Ord.compare c.val d.val) s t

namespace SortKey

def missingLast {α : Type} (order : α → α → Ordering) (direction : SortDirection) :
    Option α → Option α → Ordering
  | some a, some b => direction.apply (order a b)
  | some _, none => .lt
  | none, some _ => .gt
  | none, none => .eq

def compare (direction : SortDirection) : SortKey → SortKey → Ordering
  | text folded exact, text folded' exact' =>
    direction.apply ((Text.compare folded folded').then (Text.compare exact exact'))
  | number m, number n => missingLast Number.compare direction m n
  | date d, date e => missingLast Ord.compare direction d e
  | _, _ => .eq

/-- The key of a chunk. An empty chunk has no number, though it could be turned into zero. -/
def ofValue (ctx : Context) (style : SortStyle) (v : Value) : Except ValueError SortKey :=
  match style with
  | .text => do
    let t ← ctx.text v
    return .text t.lower t
  | .numeric =>
    .ok (.number (if v.isEmpty then none else (ctx.convert .number v).toOption))
  | .dateTime => .ok (.date (ctx.convert .date v).toOption)

end SortKey

def sortBy {α : Type} (order : α → α → Ordering) (xs : List α) : List α :=
  xs.mergeSort fun a b => (order a b).isLE

namespace Store

abbrev Arrangement :=
  {α : Type} → (α → Value) → List α → Except ValueError (List α)

def arranged (ctx : Context) (arrange : Arrangement) (v : Value) : Except ValueError Value :=
  match v with
  | .list vs => (arrange id vs).map .list
  | .binary bs => (arrange (fun b => .binary [b]) bs).map .binary
  | v => do
    let lines := chunks .line ctx.config.delimiters (← ctx.text v)
    let lines ← arrange .text lines
    return .text (ctx.config.lineEnding.text.intercalate lines)

def rearrange (s : Store) (name : Text) (arrange : Arrangement) : Except ValueError Store := do
  let some v := s.get? name | throw (.undeclared name)
  s.set name (← arranged s.context arrange (← s.context.resolve v))

def byOrder (order : Value → Value → Ordering) : Arrangement :=
  fun value xs => .ok (sortBy (fun a b => order (value a) (value b)) xs)

def byKey (ctx : Context) (style : SortStyle) (direction : SortDirection) : Arrangement :=
  fun value xs => do
    let keyed ← xs.mapM fun x => (SortKey.ofValue ctx style (value x)).map fun k => (k, x)
    return (sortBy (fun a b => SortKey.compare direction a.1 b.1) keyed).map Prod.snd

def sortChunks (s : Store) (name : Text) (order : Value → Value → Ordering) :
    Except ValueError Store :=
  s.rearrange name (byOrder order)

def sort (s : Store) (name : Text) (style : SortStyle) (direction : SortDirection) :
    Except ValueError Store :=
  s.rearrange name (byKey s.context style direction)

end Store

end ScriptValue
