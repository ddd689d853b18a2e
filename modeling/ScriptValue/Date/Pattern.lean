import ScriptValue.Date.DateTime
import ScriptValue.Text.Blank

namespace ScriptValue

namespace DatePattern

inductive Padding where
  | none
  | zeros
  | blanks
  deriving DecidableEq, Repr

inductive Part where
  | year
  | century
  | yearOfCentury
  | isoYear
  | isoYearOfCentury
  | quarter
  | month
  | day
  | ordinal
  | weekFromSunday
  | weekFromMonday
  | isoWeek
  | weekdayFromSunday
  | weekdayFromMonday
  | hour
  | hour12
  | minute
  | second
  | nano
  | timestamp
  deriving DecidableEq, Repr

def Part.isYear : Part → Bool
  | year | isoYear => true
  | _ => false

def Part.width : Part → Nat
  | quarter | weekdayFromSunday | weekdayFromMonday => 1
  | ordinal => 3
  | year | isoYear => 4
  | nano | timestamp => 9
  | _ => 2

inductive ZoneStyle where
  | plain
  | permissive
  | universal
  deriving DecidableEq, Repr

inductive Item where
  | literal (c : Char)
  | blank (c : Char)
  | number (p : Part) (padding : Padding)
  | monthName (long : Bool)
  | weekdayName (long : Bool)
  | meridiem (upper : Bool)
  | fraction (digits : Option Nat)
  | fractionDigits (digits : Nat)
  /-- What is read and has no meaning for a moment, and cannot be written. -/
  | zoneName
  | zone (style : ZoneStyle)
  | timeMark
  | unknown
  deriving DecidableEq, Repr

def partOf? : Char → Option (Part × Padding)
  | 'Y' => some (.year, .zeros)
  | 'C' => some (.century, .zeros)
  | 'y' => some (.yearOfCentury, .zeros)
  | 'G' => some (.isoYear, .zeros)
  | 'g' => some (.isoYearOfCentury, .zeros)
  | 'q' => some (.quarter, .none)
  | 'm' => some (.month, .zeros)
  | 'd' => some (.day, .zeros)
  | 'e' => some (.day, .blanks)
  | 'j' => some (.ordinal, .zeros)
  | 'U' => some (.weekFromSunday, .zeros)
  | 'W' => some (.weekFromMonday, .zeros)
  | 'V' => some (.isoWeek, .zeros)
  | 'w' => some (.weekdayFromSunday, .none)
  | 'u' => some (.weekdayFromMonday, .none)
  | 'H' => some (.hour, .zeros)
  | 'k' => some (.hour, .blanks)
  | 'I' => some (.hour12, .zeros)
  | 'l' => some (.hour12, .blanks)
  | 'M' => some (.minute, .zeros)
  | 'S' => some (.second, .zeros)
  | 'f' => some (.nano, .zeros)
  | 's' => some (.timestamp, .none)
  | _ => none

def number (c : Char) : Item :=
  match partOf? c with
  | some (p, padding) => .number p padding
  | none => .unknown

def clock : List Item := [number 'H', .literal ':', number 'M', .literal ':', number 'S']

def itemsOf : Char → List Item
  | 'B' => [.monthName true]
  | 'b' | 'h' => [.monthName false]
  | 'A' => [.weekdayName true]
  | 'a' => [.weekdayName false]
  | 'p' => [.meridiem true]
  | 'P' => [.meridiem false]
  | 'D' | 'x' => [number 'm', .literal '/', number 'd', .literal '/', number 'y']
  | 'F' => [number 'Y', .literal '-', number 'm', .literal '-', number 'd']
  | 'v' => [number 'e', .literal '-', .monthName false, .literal '-', number 'Y']
  | 'R' => [number 'H', .literal ':', number 'M']
  | 'T' | 'X' => clock
  | 'r' => [number 'I', .literal ':', number 'M', .literal ':', number 'S', .blank ' ',
      .meridiem true]
  | 'c' => [.weekdayName false, .blank ' ', .monthName false, .blank ' ', number 'e', .blank ' '] ++
      clock ++ [.blank ' ', number 'Y']
  | '+' => [number 'Y', .blank ' ', .literal '-', number 'm', .blank ' ', .literal '-', number 'd',
      .timeMark, number 'H', .blank ' ', .literal ':', number 'M', .blank ' ', .literal ':',
      number 'S', .fraction none, .zone .universal]
  | 'Z' => [.zoneName]
  | 'z' => [.zone .plain]
  | 'n' => [.blank '\n']
  | 't' => [.blank '\t']
  | '%' => [.literal '%']
  | c => [number c]

def padded (padding : Padding) (c : Char) : Item :=
  match partOf? c with
  | some (p, _) => .number p padding
  | none => .unknown

def items : Text → List Item
  | [] => []
  | ['%'] => [.unknown]
  | '%' :: '.' :: 'f' :: t => .fraction none :: items t
  | '%' :: '.' :: '3' :: 'f' :: t => .fraction (some 3) :: items t
  | '%' :: '.' :: '6' :: 'f' :: t => .fraction (some 6) :: items t
  | '%' :: '.' :: '9' :: 'f' :: t => .fraction (some 9) :: items t
  | '%' :: '3' :: 'f' :: t => .fractionDigits 3 :: items t
  | '%' :: '6' :: 'f' :: t => .fractionDigits 6 :: items t
  | '%' :: '9' :: 'f' :: t => .fractionDigits 9 :: items t
  | '%' :: ':' :: 'z' :: t => .zone .plain :: items t
  | '%' :: ':' :: ':' :: 'z' :: t => .zone .plain :: items t
  | '%' :: ':' :: ':' :: ':' :: 'z' :: t => .zone .plain :: items t
  | '%' :: '#' :: 'z' :: t => .zone .permissive :: items t
  | '%' :: '-' :: c :: t => padded .none c :: items t
  | '%' :: '_' :: c :: t => padded .blanks c :: items t
  | '%' :: '0' :: c :: t => padded .zeros c :: items t
  | '%' :: c :: t => itemsOf c ++ items t
  | c :: t => (if isWhiteSpace c then .blank c else .literal c) :: items t

def monthNames : List String :=
  ["January", "February", "March", "April", "May", "June", "July", "August", "September",
    "October", "November", "December"]

def weekdayNames : List String :=
  ["Sunday", "Monday", "Tuesday", "Wednesday", "Thursday", "Friday", "Saturday"]

def nameAt (names : List String) (long : Bool) (i : Nat) : Text :=
  let name := ((names[i]?).getD "").toList
  if long then name else name.take 3

def pad (padding : Padding) (width : Nat) (digits : Text) : Text :=
  match padding with
  | .none => digits
  | .zeros => digits.leftpad width '0'
  | .blanks => digits.leftpad width ' '

def showInt (padding : Padding) (width : Nat) (plus : Bool) (n : Int) : Text :=
  let digits := Nat.toDigits 10 n.natAbs
  match (if n < 0 then some '-' else if plus then some '+' else none), padding with
  | none, _ => pad padding width digits
  | some sign, .blanks => pad .blanks width (sign :: digits)
  | some sign, _ => sign :: pad padding (width - 1) digits

def showYear (padding : Padding) (y : Int) : Text :=
  if 0 ≤ y ∧ y ≤ 9999 then showInt padding 4 false y else showInt padding 5 true y

def valueOf (d : DateTime) : Part → Int
  | .year => d.civil.year
  | .century => d.civil.year / 100
  | .yearOfCentury => d.civil.year % 100
  | .isoYear => d.civil.isoYear
  | .isoYearOfCentury => d.civil.isoYear % 100
  | .quarter => d.civil.quarter
  | .month => d.civil.month
  | .day => d.civil.day
  | .ordinal => d.civil.ordinal
  | .weekFromSunday => d.civil.weekFrom 0
  | .weekFromMonday => d.civil.weekFrom 1
  | .isoWeek => d.civil.isoWeek
  | .weekdayFromSunday => d.civil.weekday
  | .weekdayFromMonday => d.civil.daysSince 1 + 1
  | .hour => d.hour
  | .hour12 => if d.hour % 12 = 0 then 12 else d.hour % 12
  | .minute => d.minute
  | .second => d.secondOfMinute + d.nano / nanosPerSecond
  | .nano => d.nano % nanosPerSecond
  | .timestamp => d.unixSeconds

def showPart (d : DateTime) (padding : Padding) (p : Part) : Text :=
  if p.isYear then showYear padding (valueOf d p) else showInt padding p.width false (valueOf d p)

def fractionDigits (nano digits : Nat) : Text :=
  (pad .zeros 9 (Nat.toDigits 10 nano)).take digits

def showFraction (nano : Nat) : Text :=
  if nano = 0 then []
  else if nano % 1000000 = 0 then '.' :: fractionDigits nano 3
  else if nano % 1000 = 0 then '.' :: fractionDigits nano 6
  else '.' :: fractionDigits nano 9

def showItem? (d : DateTime) : Item → Option Text
  | .literal c | .blank c => some [c]
  | .number p padding => some (showPart d padding p)
  | .monthName long => some (nameAt monthNames long (d.civil.month - 1))
  | .weekdayName long => some (nameAt weekdayNames long d.civil.weekday)
  | .meridiem upper =>
    let name : Text := (if d.hour < 12 then "AM" else "PM").toList
    some (if upper then name else name.asciiLower)
  | .fraction none => some (showFraction (d.nano % nanosPerSecond))
  | .fraction (some n) => some ('.' :: fractionDigits (d.nano % nanosPerSecond) n)
  | .fractionDigits n => some (fractionDigits (d.nano % nanosPerSecond) n)
  | .zoneName | .zone _ | .timeMark | .unknown => none

end DatePattern

def DateTime.format? (d : DateTime) (pattern : Text) : Option Text :=
  ((DatePattern.items pattern).mapM (DatePattern.showItem? d)).map List.flatten

end ScriptValue
