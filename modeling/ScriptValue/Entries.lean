import ScriptValue.Text.Basic

namespace ScriptValue

abbrev Entries (α : Type) := List (Text × α)

namespace Entries

variable {α : Type}

def keys (es : Entries α) : List Text := es.map Prod.fst

def get? (key : Text) : Entries α → Option α
  | [] => none
  | (k, a) :: es => if k = key then some a else get? key es

def has (key : Text) (es : Entries α) : Bool := (es.get? key).isSome

def insert (key : Text) (a : α) : Entries α → Entries α
  | [] => [(key, a)]
  | (k, b) :: es => if k = key then (key, a) :: es else (k, b) :: insert key a es

def erase (key : Text) : Entries α → Entries α
  | [] => []
  | (k, a) :: es => if k = key then es else (k, a) :: erase key es

def insertAll (es new : Entries α) : Entries α := new.foldl (fun es e => es.insert e.1 e.2) es

def merge : Entries α → Entries α → Entries α
  | es, [] => es
  | [], new => new
  | es, new => es.insertAll new

def ofList (es : Entries α) : Entries α := insertAll [] es

@[simp] theorem get?_nil (key : Text) : get? key ([] : Entries α) = none := rfl

theorem get?_insert (key other : Text) (a : α) (es : Entries α) :
    (es.insert key a).get? other = if key = other then some a else es.get? other := by
  induction es with
  | nil => simp [insert, get?]
  | cons e es ih =>
    obtain ⟨k, b⟩ := e
    by_cases hk : k = key
    · subst hk
      by_cases ho : k = other <;> simp [insert, get?, ho]
    · by_cases ho : k = other
      · subst ho
        simp [insert, get?, hk, Ne.symm hk]
      · simp [insert, get?, hk, ho, ih]

end Entries

end ScriptValue
