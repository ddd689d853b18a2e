import ScriptValue.Number.Extended

namespace ScriptValue

instance : Magnitude Int where
  ofInt n := n
  sign := Int.sign
  neg n := -n

abbrev Integer := Extended Int

namespace Integer

def ofInt (n : Int) : Integer := .finite n

def plus : Integer → Integer → Integer := Extended.plus fun a b => .finite (a + b)

def minus : Integer → Integer → Integer := Extended.minus fun a b => .finite (a - b)

def times : Integer → Integer → Integer := Extended.times fun a b => .finite (a * b)

def quotient : Integer → Integer → Integer := Extended.quotient fun a b => .finite (a.tdiv b)

def modulo : Integer → Integer → Integer := Extended.modulo fun a b => .finite (a.tmod b)

def power : Integer → Nat → Integer := Extended.power fun a n => .finite (a.pow n)

def frac : Integer → Integer
  | .finite _ => .zero
  | _ => .nan

def compare : Integer → Integer → Ordering := Extended.compare Ord.compare

def magnitude : Integer → Int
  | .finite n => n
  | x => x.side

def toWord? : Integer → Option Int
  | .finite n => if -9223372036854775808 ≤ n ∧ n ≤ 9223372036854775807 then some n else none
  | _ => none

end Integer

end ScriptValue
