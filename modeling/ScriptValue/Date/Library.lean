import ScriptValue.Text.Basic

namespace ScriptValue

def nanosPerSecond : Nat := 1000000000

/-- What the language asks of a library of dates. Its moments are in no time zone. -/
class DateLibrary where
  Moment : Type
  [decEq : DecidableEq Moment]
  [ord : Ord Moment]
  /-- The whole seconds from the start of 1970, and the nanoseconds since the last of them. -/
  unixSeconds : Moment → Int
  nano : Moment → Nat
  ofUnix? : Int → Nat → Option Moment
  /-- The moment written by a pattern, unless no moment can be written by it. -/
  format? : Moment → Text → Option Text
  /-- The moment, and the start of the day, that a text gives by a pattern. -/
  readMoment? : Text → Text → Option Moment
  readDay? : Text → Text → Option Moment

namespace DateLibrary

attribute [reducible, instance] decEq ord

/--
Moments that are no leap seconds are in bijection with their seconds, which fit a signed word of 64
bits, and any nanoseconds that make up less than a second; and they are in the order of these.
-/
class Lawful [DateLibrary] : Prop where
  ofUnix?_eq_some_iff {seconds : Int} {n : Nat} {t : Moment} (h : n < nanosPerSecond) :
    ofUnix? seconds n = some t ↔ unixSeconds t = seconds ∧ nano t = n
  exists_ofUnix?_eq_some {n : Nat} (t : Moment) (h : n < nanosPerSecond) :
    ∃ u, ofUnix? (unixSeconds t) n = some u
  le_unixSeconds (t : Moment) : -9223372036854775808 ≤ unixSeconds t
  unixSeconds_le (t : Moment) : unixSeconds t ≤ 9223372036854775807
  compare_eq_then {t u : Moment} (ht : nano t < nanosPerSecond) (hu : nano u < nanosPerSecond) :
    compare t u = (compare (unixSeconds t) (unixSeconds u)).then (compare (nano t) (nano u))

end DateLibrary

end ScriptValue
