import ScriptValue.Date.Pattern

namespace ScriptValue

inductive DateField where
  | year
  | century
  | yearOfCentury
  | isoYear
  | isoYearOfCentury
  | quarter
  | month
  | day
  | ordinal
  | weekFromSunday
  | weekFromMonday
  | isoWeek
  | weekday
  | half
  | hourOfHalf
  | minute
  | second
  | nano
  | timestamp
  | zone
  deriving DecidableEq, Repr

abbrev DateParts := DateField → Option Int

inductive DateFault where
  | incomplete
  | impossible
  deriving DecidableEq, Repr

namespace DateParts

open DatePattern

def unknown : DateParts := fun _ => none

def put (p : DateParts) (f : DateField) (n : Int) : Option DateParts :=
-- no field may be given two values
  if (p f).all (· = n) then some fun g => if g = f then some n else p g else none

def putBetween (p : DateParts) (f : DateField) (low high n : Int) : Option DateParts :=
  if low ≤ n ∧ n ≤ high then p.put f n else none

def putHour (p : DateParts) (n : Int) : Option DateParts :=
  if 0 ≤ n ∧ n ≤ 23 then do (← p.put .half (n / 12)).put .hourOfHalf (n % 12) else none

def set (p : DateParts) (n : Int) : Part → Option DateParts
  | .year => p.putBetween .year (-2147483648) 2147483647 n
  | .century => p.putBetween .century 0 2147483647 n
  | .yearOfCentury => p.putBetween .yearOfCentury 0 99 n
  | .isoYear => p.putBetween .isoYear (-2147483648) 2147483647 n
  | .isoYearOfCentury => p.putBetween .isoYearOfCentury 0 99 n
  | .quarter => p.putBetween .quarter 1 4 n
  | .month => p.putBetween .month 1 12 n
  | .day => p.putBetween .day 1 31 n
  | .ordinal => p.putBetween .ordinal 1 366 n
  | .weekFromSunday => p.putBetween .weekFromSunday 0 53 n
  | .weekFromMonday => p.putBetween .weekFromMonday 0 53 n
  | .isoWeek => p.putBetween .isoWeek 1 53 n
  | .weekdayFromSunday => p.putBetween .weekday 0 6 n
  | .weekdayFromMonday => if 1 ≤ n ∧ n ≤ 7 then p.put .weekday (n % 7) else none
  | .hour => p.putHour n
  | .hour12 => if 1 ≤ n ∧ n ≤ 12 then p.put .hourOfHalf (n % 12) else none
  | .minute => p.putBetween .minute 0 59 n
  | .second => p.putBetween .second 0 60 n
  | .nano => p.putBetween .nano 0 999999999 n
  | .timestamp => p.putBetween .timestamp (-9223372036854775808) 9223372036854775807 n

/-- Two digits alone mean the years from 1970 to 2069; centuries are those of years from zero on. -/
def resolveYear : Option Int → Option Int → Option Int → Except DateFault (Option Int)
  | year, none, none => .ok year
  | some year, century, rest =>
    if 0 ≤ year ∧ century.all (· = year / 100) ∧ rest.all (· = year % 100) then .ok (some year)
    else .error .impossible
  | none, some century, some rest => .ok (some (century * 100 + rest))
  | none, none, some rest => .ok (some (if rest < 70 then 2000 + rest else 1900 + rest))
  | none, some _, none => .error .incomplete

def candidate (p : DateParts) (year isoYear : Option Int) : Option (Option CivilDate) :=
-- the first of these ways counts for which the fields are known, even if it leads nowhere
  (do return CivilDate.ofMonth? (← year) (← p .month) (← p .day)) <|>
  (do return CivilDate.ofOrdinal? (← year) (← p .ordinal)) <|>
  (do return CivilDate.ofWeek? 0 (← year) (← p .weekFromSunday) (← p .weekday)) <|>
  (do return CivilDate.ofWeek? 1 (← year) (← p .weekFromMonday) (← p .weekday)) <|>
  (do return CivilDate.ofIsoWeek? (← isoYear) (← p .isoWeek) (← p .weekday))

def ofEra (year n : Int) : Option Int := if 0 ≤ year then some n else none

def dateFields (d : CivilDate) : List (DateField × Option Int) :=
  [(.year, some d.year), (.century, ofEra d.year (d.year / 100)),
    (.yearOfCentury, ofEra d.year (d.year % 100)), (.isoYear, some d.isoYear),
    (.isoYearOfCentury, ofEra d.isoYear (d.isoYear % 100)), (.quarter, some d.quarter),
    (.month, some d.month), (.day, some d.day), (.ordinal, some d.ordinal),
    (.weekFromSunday, some (d.weekFrom 0)), (.weekFromMonday, some (d.weekFrom 1)),
    (.isoWeek, some d.isoWeek), (.weekday, some d.weekday)]

def fitsDate (p : DateParts) (d : CivilDate) : Bool :=
  (dateFields d).all fun (f, value) => (p f).all fun n => value == some n

def toCivil (p : DateParts) : Except DateFault CivilDate := do
  let year ← resolveYear (p .year) (p .century) (p .yearOfCentury)
  let isoYear ← resolveYear (p .isoYear) none (p .isoYearOfCentury)
  match p.candidate year isoYear with
  | none => throw .incomplete
  | some none => throw .impossible
  | some (some date) =>
    if (DateTime.ofCivil? date 0 0).isSome && p.fitsDate date then return date
    else throw .impossible

def toClock (p : DateParts) : Except DateFault (Nat × Nat) := do
  let (some half, some hour, some minute) := (p .half, p .hourOfHalf, p .minute)
    | throw .incomplete
  if (p .second).isNone ∧ (p .nano).isSome then throw .incomplete
  let second := (p .second).getD 0
  let nano := (p .nano).getD 0
-- a second of 60 is a leap second
  let leap := decide (second = 60)
  return (((half * 12 + hour) * 3600 + minute * 60 + (if leap then 59 else second)).toNat,
    (nano + if leap then nanosPerSecond else 0).toNat)

def atClock (date : CivilDate) (clock : Nat × Nat) : Option DateTime :=
  DateTime.ofCivil? date clock.1 clock.2

def confirm (p : DateParts) (d : DateTime) : Option DateTime :=
  let leap := nanosPerSecond ≤ d.nano
  if (p .timestamp).all fun s => s = d.unixSeconds ∨ leap ∧ s = d.unixSeconds + 1 then some d
  else none

/-- The moment given by a timestamp, where the other parts are incomplete but must fit it. -/
def ofTimestamp (p : DateParts) (timestamp : Int) : Option DateTime := do
  let d ← DateTime.ofUnix? timestamp 0
  let leap := p .second = some 60
  let d ←
    if leap then
      if d.secondOfMinute = 59 then some d
      else if d.secondOfMinute = 0 then DateTime.ofUnix? (timestamp - 1) 0
      else none
    else some d
  let p ← if leap then some p else p.put .second d.secondOfMinute
  let p ← p.put .year d.civil.year
  let p ← p.put .ordinal d.civil.ordinal
  let p ← p.putHour d.hour
  let p ← p.put .minute d.minute
  match p.toCivil, p.toClock with
  | .ok date, .ok clock => atClock date clock
  | _, _ => none

def toDateTime (p : DateParts) : Option DateTime :=
  match p.toCivil, p.toClock with
  | .ok date, .ok clock => (atClock date clock).bind p.confirm
  | .error .impossible, _ => none
  | _, .error .impossible => none
  | _, _ => (p .timestamp).bind p.ofTimestamp

def toMidnight (p : DateParts) : Option DateTime :=
  match p.toCivil with
  | .ok date => DateTime.ofCivil? date 0 0
  | .error _ => none

end DateParts

namespace DatePattern

def readDigits (width : Option Nat) (t : Text) : Option (Int × Text) :=
  let digits := (width.elim t t.take).takeWhile Char.isDigit
  if digits = [] then none
  else some (Nat.ofDigitChars 10 digits 0, t.drop digits.length)

def readNumber (p : Part) (t : Text) : Option (Int × Text) :=
  match p.isYear, t.trimStart with
  | true, '-' :: t => (readDigits none t).map fun (n, t) => (-n, t)
  | true, '+' :: t => readDigits none t
  | _, t => readDigits (if p = .timestamp then none else some p.width) t

def readWord (word : Text) (t : Text) : Option Text :=
  if Text.asciiLower (t.take word.length) = word.asciiLower then some (t.drop word.length) else none

def readName (names : List String) (long : Bool) (t : Text) : Option (Nat × Text) :=
  (names.zipIdx.findSome? fun (name, i) =>
    (readWord (name.toList.take 3) t).map fun t =>
      (i, if long then (readWord (name.toList.drop 3) t).getD t else t))

def readFraction (places : Option Nat) (t : Text) : Option (Int × Text) :=
  let digits := (places.elim t t.take).takeWhile Char.isDigit
  if digits = [] ∨ places.any (· ≠ digits.length) then none
  else
-- digits behind the ninth are read and do not count
    let kept := (digits.take 9).rightpad 9 '0'
    some (Nat.ofDigitChars 10 kept 0, t.drop digits.length)

def readTwoDigits : Text → Option (Int × Text)
  | c :: d :: t =>
    if c.isDigit ∧ d.isDigit then some (Nat.ofDigitChars 10 [c, d] 0, t) else none
  | _ => none

def readDistance (missingMinutes : Bool) (t : Text) : Option (Int × Text) := do
  let (hours, t) ← readTwoDigits t
  let t := t.dropWhile fun c => c = ':' || isWhiteSpace c
  if missingMinutes && t.isEmpty then return (hours * 3600, [])
  let (minutes, t) ← readTwoDigits t
  if minutes < 60 then return (hours * 3600 + minutes * 60, t) else none

def readZone (style : ZoneStyle) (t : Text) : Option (Int × Text) :=
  let t := t.trimStart
  let utc := if style = .universal then readWord "utc".toList t else none
  let zulu := if style = .plain then none else readWord "z".toList t
  match utc <|> zulu, t with
  | some t, _ => some (0, t)
  | none, '+' :: t => readDistance (style = .permissive) t
  | none, '-' :: t | none, '−' :: t =>
    (readDistance (style = .permissive) t).map fun (n, t) => (-n, t)
  | none, _ => none

def readItem (p : DateParts) (t : Text) : Item → Option (DateParts × Text)
  | .literal c => match t with
    | [] => none
    | d :: t => if c = d then some (p, t) else none
  | .blank _ => some (p, t.trimStart)
  | .number part _ => do
    let (n, t) ← readNumber part t
    return (← p.set n part, t)
  | .monthName long => do
    let (i, t) ← readName monthNames long t
    return (← p.put .month (i + 1), t)
  | .weekdayName long => do
    let (i, t) ← readName weekdayNames long t
    return (← p.put .weekday i, t)
  | .meridiem _ =>
    match readWord "am".toList t, readWord "pm".toList t with
    | some t, _ => (p.put .half 0).map fun p => (p, t)
    | none, some t => (p.put .half 1).map fun p => (p, t)
    | none, none => none
  | .fraction places => match t with
    | '.' :: t => do
      let (n, t) ← readFraction places t
      return (← p.put .nano n, t)
    | t => some (p, t)
  | .fractionDigits places => do
    let (n, t) ← readFraction (some places) t
    return (← p.put .nano n, t)
  | .zoneName => some (p, t.dropWhile fun c => !isWhiteSpace c)
  | .zone style => do
    let (n, t) ← readZone style t
    return (← p.put .zone n, t)
  | .timeMark => match t with
    | 'T' :: t | 't' :: t | ' ' :: t => some (p, t)
    | _ => none
  | .unknown => none

def readParts (t : Text) (pattern : Text) : Option DateParts := do
  let (p, rest) ← (items pattern).foldlM (fun (p, t) item => readItem p t item)
    (DateParts.unknown, t)
  if rest = [] then return p else none

end DatePattern

instance : DateLibrary where
  Moment := DateTime
  unixSeconds := DateTime.unixSeconds
  nano := DateTime.nano
  ofUnix? := DateTime.ofUnix?
  format? := DateTime.format?
  readMoment? t pattern := (DatePattern.readParts t pattern).bind DateParts.toDateTime
  readDay? t pattern := (DatePattern.readParts t pattern).bind DateParts.toMidnight

end ScriptValue
