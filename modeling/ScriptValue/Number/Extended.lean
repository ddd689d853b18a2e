namespace ScriptValue

inductive NumberState where
  | defined
  | nan
  | infinity
  | negInfinity
  deriving DecidableEq, Repr

namespace NumberState

def isDefined (s : NumberState) : Bool := s == .defined

def isInfinite (s : NumberState) : Bool := s == .infinity || s == .negInfinity

def token? : NumberState → Option String
  | defined => none
  | nan => some "NaN"
  | infinity => some "Infinity"
  | negInfinity => some "-Infinity"

def name (s : NumberState) : String := s.token?.getD "defined"

def rank : NumberState → Nat
  | negInfinity => 0
  | defined => 1
  | infinity => 2
  | nan => 3

end NumberState

class Magnitude (α : Type) where
  ofInt : Int → α
  sign : α → Int
  neg : α → α

inductive Extended (α : Type) where
  | finite (a : α)
  | nan
  | infinity
  | negInfinity
  deriving DecidableEq, Repr

namespace Extended

variable {α : Type}

def state : Extended α → NumberState
  | finite _ => .defined
  | nan => .nan
  | infinity => .infinity
  | negInfinity => .negInfinity

/-- Finite values in their own order, between the infinities; nan is last and equals itself. -/
def compare (order : α → α → Ordering) : Extended α → Extended α → Ordering
  | finite a, finite b => order a b
  | x, y => Ord.compare x.state.rank y.state.rank

variable [Magnitude α]

def zero : Extended α := finite (Magnitude.ofInt 0)

def one : Extended α := finite (Magnitude.ofInt 1)

def ofState : NumberState → Extended α
  | .defined => zero
  | .nan => nan
  | .infinity => infinity
  | .negInfinity => negInfinity

def side : Extended α → Int
  | finite a => Magnitude.sign a
  | nan => 0
  | infinity => 1
  | negInfinity => -1

def ofSide (s : Int) : Extended α :=
  if 0 < s then infinity else if s < 0 then negInfinity else nan

def isZero (x : Extended α) : Bool := x.state.isDefined && x.side == 0

def isNegative (x : Extended α) : Bool := decide (x.side < 0)

def negate : Extended α → Extended α
  | finite a => finite (Magnitude.neg a)
  | nan => nan
  | infinity => negInfinity
  | negInfinity => infinity

def abs (x : Extended α) : Extended α := if x.isNegative then x.negate else x

def signum : Extended α → Extended α
  | nan => nan
  | x => finite (Magnitude.ofInt x.side)

def plus (sum : α → α → Extended α) : Extended α → Extended α → Extended α
  | finite a, finite b => sum a b
  | nan, _ | _, nan => nan
  | infinity, negInfinity | negInfinity, infinity => nan
  | infinity, _ | _, infinity => infinity
  | negInfinity, _ | _, negInfinity => negInfinity

def minus (difference : α → α → Extended α) : Extended α → Extended α → Extended α
  | finite a, finite b => difference a b
  | nan, _ | _, nan => nan
  | infinity, infinity | negInfinity, negInfinity => nan
  | infinity, _ | _, negInfinity => infinity
  | negInfinity, _ | _, infinity => negInfinity

def times (product : α → α → Extended α) : Extended α → Extended α → Extended α
  | finite a, finite b => product a b
-- an infinity times zero lies on no side
  | x, y => ofSide (x.side * y.side)

def quotient (ratio : α → α → Extended α) : Extended α → Extended α → Extended α
  | finite a, finite b =>
    if Magnitude.sign b = 0 then ofSide (Magnitude.sign a) else ratio a b
  | finite _, infinity | finite _, negInfinity => zero
  | infinity, finite b => if Magnitude.sign b < 0 then negInfinity else infinity
  | negInfinity, finite b => if Magnitude.sign b < 0 then infinity else negInfinity
  | _, _ => nan

def modulo (remainder : α → α → Extended α) : Extended α → Extended α → Extended α
  | finite a, finite b => if Magnitude.sign b = 0 then nan else remainder a b
  | finite a, infinity | finite a, negInfinity => finite a
  | _, _ => nan

def power (raise : α → Nat → Extended α) (x : Extended α) (n : Nat) : Extended α :=
  if n = 0 then one
  else match x with
    | finite a => raise a n
    | nan => nan
    | infinity => infinity
    | negInfinity => if n % 2 = 1 then negInfinity else infinity

end Extended

end ScriptValue
