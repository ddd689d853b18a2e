import ScriptValue.Config
import ScriptValue.Date.Library
import ScriptValue.Text.Blank

namespace ScriptValue

variable [DateLibrary]

open DateLibrary

def Decimal.ofMoment (t : Moment) : Decimal :=
  ofScaled (unixSeconds t * nanosPerSecond + nano t) 9

namespace DateLibrary

def nanos? (n : Int) : Option Nat := if 0 ≤ n ∧ n ≤ 4294967295 then some n.toNat else none

def ofUnixInteger? (n : Integer) : Option Moment := n.toWord?.bind (ofUnix? · 0)

def ofUnixDecimal? (x : Decimal) : Option Moment := do
  let whole := x.floor
  let nanos ← ((x.minus whole).times (.ofInt nanosPerSecond)).toInteger.toWord?
  let seconds ← whole.toInteger.toWord?
  ofUnix? seconds (← nanos? nanos)

def format (t : Moment) (pattern : Text) : Text :=
  ((format? t pattern).orElse fun _ => format? t Config.standardDatePattern).getD []

def readBy (t pattern : Text) : Option Moment :=
  (readMoment? t pattern).orElse fun _ => readDay? t pattern

/--
The patterns that are tried after the one chosen. Years of two digits come before those of four,
as a year of four digits may also be written with two.
-/
def commonPatterns : List Text :=
  ["%Y-%m-%d %H:%M:%S", "%Y-%m-%dT%H:%M:%S", "%Y-%m-%d", "%m/%d/%y", "%m/%d/%Y", "%B %d, %Y",
    "%A, %B %d, %Y"].map String.toList

def parse? (pattern t : Text) : Option Moment :=
  (pattern :: commonPatterns).findSome? (readBy t.trim)

end DateLibrary

end ScriptValue
