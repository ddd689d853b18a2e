namespace ScriptValue

structure CivilDate where
  year : Int
  month : Nat
  day : Nat
  deriving DecidableEq, Repr

namespace CivilDate

def isLeap (year : Int) : Bool := year % 4 == 0 && (year % 100 != 0 || year % 400 == 0)

def daysInMonth (year : Int) (month : Nat) : Nat :=
  if month = 2 then (if isLeap year then 29 else 28)
  else if month = 4 ∨ month = 6 ∨ month = 9 ∨ month = 11 then 30
  else 31

def isValid (d : CivilDate) : Bool :=
  1 ≤ d.month && d.month ≤ 12 && 1 ≤ d.day && d.day ≤ daysInMonth d.year d.month

def toDay (d : CivilDate) : Int :=
  -- years end with February here, which puts the leap day last
  let y := if d.month ≤ 2 then d.year - 1 else d.year
  let era := y / 400
  let yearOfEra := y % 400
  let month : Int := (d.month + 9) % 12
  let dayOfYear := (153 * month + 2) / 5 + d.day - 1
  let dayOfEra := yearOfEra * 365 + yearOfEra / 4 - yearOfEra / 100 + dayOfYear
  era * 146097 + dayOfEra - 719468

def ofDay (day : Int) : CivilDate :=
  let z := day + 719468
  let era := z / 146097
  let dayOfEra := z % 146097
  let yearOfEra := (dayOfEra - dayOfEra / 1460 + dayOfEra / 36524 - dayOfEra / 146096) / 365
  let dayOfYear := dayOfEra - (365 * yearOfEra + yearOfEra / 4 - yearOfEra / 100)
  let month := (5 * dayOfYear + 2) / 153
  let dayOfMonth := dayOfYear - (153 * month + 2) / 5 + 1
  let month := if month < 10 then month + 3 else month - 9
  ⟨yearOfEra + era * 400 + (if month ≤ 2 then 1 else 0), month.toNat, dayOfMonth.toNat⟩

def newYear (year : Int) : CivilDate := ⟨year, 1, 1⟩

def daysInYear (year : Int) : Nat := if isLeap year then 366 else 365

def quarter (d : CivilDate) : Nat := (d.month + 2) / 3

def ordinal (d : CivilDate) : Nat := (d.toDay - (newYear d.year).toDay + 1).toNat

def weekday (d : CivilDate) : Nat := ((d.toDay + 4) % 7).toNat

def daysSince (weekday : Nat) (d : CivilDate) : Nat := (d.weekday + 7 - weekday) % 7

def weekFrom (start : Nat) (d : CivilDate) : Nat := (d.ordinal + 6 - d.daysSince start) / 7

/-- The Thursday of the week of a date, from Monday on. The week is one of the year it lies in. -/
def thursday (d : CivilDate) : CivilDate := ofDay (d.toDay - d.daysSince 1 + 3)

def isoYear (d : CivilDate) : Int := d.thursday.year

def isoWeek (d : CivilDate) : Nat := (d.thursday.ordinal + 6) / 7

def ofMonth? (year month day : Int) : Option CivilDate :=
  let d : CivilDate := ⟨year, month.toNat, day.toNat⟩
  if d.isValid then some d else none

def ofOrdinal? (year ordinal : Int) : Option CivilDate :=
  if 1 ≤ ordinal ∧ ordinal ≤ daysInYear year then
    some (ofDay ((newYear year).toDay + ordinal - 1))
  else none

def ofWeek? (start : Nat) (year week weekday : Int) : Option CivilDate :=
  let opening := (start - (newYear year).weekday : Int) % 7
  ofOrdinal? year (1 + opening + (week - 1) * 7 + (weekday - start) % 7)

def ofIsoWeek? (year week weekday : Int) : Option CivilDate :=
  -- the fourth of January is always in week one
  let fourth : CivilDate := ⟨year, 1, 4⟩
  let d := ofDay (fourth.toDay - fourth.daysSince 1 + (week - 1) * 7 + (weekday - 1) % 7)
  if d.isoYear = year ∧ d.isoWeek = week then some d else none

end CivilDate

end ScriptValue
