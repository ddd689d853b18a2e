import ScriptValue.Number.Decimal

namespace ScriptValue

inductive Number where
  | integer (n : Integer)
  | decimal (d : Decimal)
  deriving DecidableEq, Repr

namespace Number

def state : Number → NumberState
  | integer n => n.state
  | decimal d => d.state

def isDefined (x : Number) : Bool := x.state.isDefined

def toDecimal : Number → Decimal
  | integer n => .ofInteger n
  | decimal d => d

def toInteger : Number → Integer
  | integer n => n
  | decimal d => d.toInteger

def simplify : Number → Number
  | integer n => integer n
  | decimal d => if d.isIntegral then integer d.toInteger else decimal d

def plus : Number → Number → Number
  | integer a, integer b => integer (a.plus b)
  | x, y => decimal (x.toDecimal.plus y.toDecimal)

def minus : Number → Number → Number
  | integer a, integer b => integer (a.minus b)
  | x, y => decimal (x.toDecimal.minus y.toDecimal)

def times : Number → Number → Number
  | integer a, integer b => integer (a.times b)
  | x, y => decimal (x.toDecimal.times y.toDecimal)

def quotient (x y : Number) : Number := decimal (x.toDecimal.quotient y.toDecimal)

def modulo : Number → Number → Number
  | integer a, integer b => integer (a.modulo b)
  | x, y => decimal (x.toDecimal.modulo y.toDecimal)

def negate : Number → Number
  | integer n => integer n.negate
  | decimal d => decimal d.negate

def abs : Number → Number
  | integer n => integer n.abs
  | decimal d => decimal d.abs

def compare : Number → Number → Ordering
  | integer a, integer b => a.compare b
  | x, y => x.toDecimal.compare y.toDecimal

def same (x y : Number) : Bool := x.compare y == .eq

end Number

end ScriptValue
