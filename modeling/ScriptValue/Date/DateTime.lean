import ScriptValue.Date.Calendar
import ScriptValue.Date.Library

namespace ScriptValue

namespace DateTime

def secondsPerDay : Nat := 86400

def minYear : Int := -262143

def maxYear : Int := 262142

def minDay : Int := -96465292

def maxDay : Int := 95026236

theorem toDay_minYear : (CivilDate.newYear minYear).toDay = minDay := by decide

theorem toDay_maxYear : (CivilDate.newYear (maxYear + 1)).toDay = maxDay + 1 := by decide

end DateTime

/--
A day, from 1970-01-01, and a second and a nanosecond of it. A leap second is the last second of a
minute with a nanosecond of a thousand million and more.
-/
structure DateTime where
  day : Int
  second : Nat
  nano : Nat
  minDay_le : DateTime.minDay ≤ day
  day_le : day ≤ DateTime.maxDay
  second_lt : second < DateTime.secondsPerDay
  nano_lt : nano < nanosPerSecond ∨ second % 60 = 59 ∧ nano < 2 * nanosPerSecond
  deriving DecidableEq, Repr

namespace DateTime

def ofDay? (day : Int) (second nano : Nat) : Option DateTime :=
  if h : minDay ≤ day ∧ day ≤ maxDay ∧ second < secondsPerDay ∧
      (nano < nanosPerSecond ∨ second % 60 = 59 ∧ nano < 2 * nanosPerSecond) then
    some ⟨day, second, nano, h.1, h.2.1, h.2.2.1, h.2.2.2⟩
  else none

def ofCivil? (date : CivilDate) (second nano : Nat) : Option DateTime :=
  if date.isValid then ofDay? date.toDay second nano else none

def ofClock? (date : CivilDate) (hour minute second nano : Nat) : Option DateTime :=
  if hour < 24 ∧ minute < 60 ∧ second < 60 then
    ofCivil? date (hour * 3600 + minute * 60 + second) nano
  else none

def civil (d : DateTime) : CivilDate := .ofDay d.day

def hour (d : DateTime) : Nat := d.second / 3600

def minute (d : DateTime) : Nat := d.second / 60 % 60

def secondOfMinute (d : DateTime) : Nat := d.second % 60

def unixSeconds (d : DateTime) : Int := d.day * secondsPerDay + d.second

def ofUnix? (seconds : Int) (nano : Nat) : Option DateTime :=
  ofDay? (seconds / secondsPerDay) (seconds % secondsPerDay).toNat nano

def compare (a b : DateTime) : Ordering :=
  (Ord.compare a.day b.day).then
    ((Ord.compare a.second b.second).then (Ord.compare a.nano b.nano))

instance : Ord DateTime := ⟨compare⟩

end DateTime

end ScriptValue
