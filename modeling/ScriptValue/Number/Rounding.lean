namespace ScriptValue

inductive Rounding where
  | ceiling
  | floor
  | halfUp
  | halfEven
  | down
  | up
  deriving DecidableEq, Repr

namespace Rounding

/--
Whether an inexact quotient leaves zero: `twice` compares twice the remainder with the divisor, and
`negative` and `odd` speak of the exact result and of the quotient nearer to zero.
-/
def leavesZero (mode : Rounding) (negative odd : Bool) (twice : Ordering) : Bool :=
  match mode with
  | ceiling => !negative
  | floor => negative
  | halfUp => twice != .lt
  | halfEven => twice == .gt || (twice == .eq && odd)
  | down => false
  | up => true

def divide (mode : Rounding) (n d : Int) : Int :=
  let n := if d < 0 then -n else n
  let d := (d.natAbs : Int)
  let q := n.tdiv d
  let r := n.tmod d
  if r = 0 then q
  else if mode.leavesZero (decide (r < 0)) (q % 2 == 1) (compare (2 * r.natAbs) d.natAbs) then
    q + r.sign
  else q

end Rounding

end ScriptValue
