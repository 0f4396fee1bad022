import WidgetShorthand.Text.Basic
import WidgetShorthand.Text.Blank

/-!
# Points in time

The form of a point in time in files: a date, a time of day with an optional fraction of a second,
and an offset from universal time. It is the form of RFC 3339 with some liberties. White space may
stand in front of every number, mark and offset and at the end. A month, a day and the parts of the
time may have one digit. A year may have fewer than four digits, and more when it has a sign. The
offset may be the name of universal time, and between its hours and minutes stand any number of
colons and blanks.

A text of that form is a point in time when its numbers name a day of the calendar and a time of
that day, and when both the date and the date in universal time lie in the years that are supported.
-/

namespace WidgetShorthand.Text

structure CalendarDate where
  year : Int
  month : Nat
  day : Nat
  deriving DecidableEq, Repr

/-- A time of day to the second; what a fraction of a second adds is not kept. -/
structure TimeOfDay where
  hour : Nat
  minute : Nat
  second : Nat
  deriving DecidableEq, Repr

/-- A local date and time, and the minutes by which it is ahead of universal time. -/
structure Moment where
  date : CalendarDate
  time : TimeOfDay
  offset : Int
  deriving DecidableEq, Repr

/-! ## Reading -/

def dropWhite (cs : List Char) : List Char :=
  cs.dropWhile isWhite

/-- Reads a number of at least one digit, of which it takes no more than `most`. -/
def number? (most : Nat) (cs : List Char) : Option (Nat × List Char) :=
  let digits := (cs.takeWhile Char.isDigit).take most
  if digits.isEmpty then none else some (decimalValue digits, cs.drop digits.length)

/-- Reads a number of one or two digits behind white space. -/
def shortNumber? (cs : List Char) : Option (Nat × List Char) :=
  number? 2 (dropWhite cs)

/-- Reads a mark behind white space. -/
def mark? (mark : Char) (cs : List Char) : Option (List Char) :=
  match dropWhite cs with
  | [] => none
  | c :: r => if c = mark then some r else none

/-- Reads a year: up to four digits, or any number of them behind a sign. -/
def year? (cs : List Char) : Option (Int × List Char) :=
  match dropWhite cs with
  | '+' :: r => (number? r.length r).map fun (n, rest) => ((n : Int), rest)
  | '-' :: r => (number? r.length r).map fun (n, rest) => (-(n : Int), rest)
  | r => (number? 4 r).map fun (n, rest) => ((n : Int), rest)

def date? (cs : List Char) : Option (CalendarDate × List Char) := do
  let (year, cs) ← year? cs
  let cs ← mark? '-' cs
  let (month, cs) ← shortNumber? cs
  let cs ← mark? '-' cs
  let (day, cs) ← shortNumber? cs
  return (⟨year, month, day⟩, cs)

/-- Reads what stands between a date and a time. -/
def separator? : List Char → Option (List Char)
  | [] => none
  | c :: r => if c == 'T' || c == 't' || c == ' ' then some r else none

/-- The text behind an optional fraction of a second; none when a point has no digit behind it. -/
def dropFraction? : List Char → Option (List Char)
  | '.' :: r => if r.takeWhile Char.isDigit = [] then none else some (r.dropWhile Char.isDigit)
  | cs => some cs

def timeOfDay? (cs : List Char) : Option (TimeOfDay × List Char) := do
  let (hour, cs) ← shortNumber? cs
  let cs ← mark? ':' cs
  let (minute, cs) ← shortNumber? cs
  let cs ← mark? ':' cs
  let (second, cs) ← shortNumber? cs
  let cs ← dropFraction? cs
  return (⟨hour, minute, second⟩, cs)

/-- Reads a number of exactly two digits. -/
def twoDigits? : List Char → Option (Nat × List Char)
  | a :: b :: r => if a.isDigit && b.isDigit then some (decimalValue [a, b], r) else none
  | _ => none

/-- Whether a character may stand between the hours and the minutes of an offset. -/
def isOffsetGap (c : Char) : Bool :=
  c == ':' || isWhite c

/-- Reads the size of an offset, in minutes. -/
def offsetSize? (cs : List Char) : Option (Nat × List Char) := do
  let (hours, cs) ← twoDigits? cs
  let (minutes, cs) ← twoDigits? (cs.dropWhile isOffsetGap)
  if hours < 24 && minutes < 60 then return (60 * hours + minutes, cs) else none

/-- Whether a text begins with the name of universal time, in either case. -/
def startsUniversal (cs : List Char) : Bool :=
  (cs.take 3).map Char.toLower == ['u', 't', 'c']

/-- Reads an offset behind white space. Its minus sign may be the mathematical one. -/
def offset? (cs : List Char) : Option (Int × List Char) :=
  match dropWhite cs with
  | [] => none
  | c :: r =>
    if c == 'Z' || c == 'z' then some (0, r)
    else if c == '+' then (offsetSize? r).map fun (n, rest) => ((n : Int), rest)
    else if c == '-' || c == '−' then (offsetSize? r).map fun (n, rest) => (-(n : Int), rest)
    else if startsUniversal (c :: r) then some (0, (c :: r).drop 3)
    else none

/-- Reads a whole text as a date, a time and an offset. -/
def moment? (cs : List Char) : Option Moment := do
  let (date, cs) ← date? cs
  let cs ← separator? cs
  let (time, cs) ← timeOfDay? cs
  let (offset, cs) ← offset? cs
  if (dropWhite cs).isEmpty then return ⟨date, time, offset⟩ else none

/-! ## The calendar -/

def isLeapYear (year : Int) : Bool :=
  year % 4 == 0 && (year % 100 != 0 || year % 400 == 0)

def daysInMonth (year : Int) (month : Nat) : Nat :=
  if month = 2 then if isLeapYear year then 29 else 28
  else if month = 4 || month = 6 || month = 9 || month = 11 then 30
  else 31

/-- Whether a year is one of those that are supported. -/
def isSupportedYear (year : Int) : Bool :=
  -262143 ≤ year && year ≤ 262142

def CalendarDate.isValid (d : CalendarDate) : Bool :=
  1 ≤ d.month && d.month ≤ 12 && 1 ≤ d.day && d.day ≤ daysInMonth d.year d.month

/-- The last second may be a leap second. -/
def TimeOfDay.isValid (t : TimeOfDay) : Bool :=
  t.hour < 24 && t.minute < 60 && t.second ≤ 60

/-- The minute of the day in universal time, which may be one of the day before or of the day
after. -/
def Moment.universalMinute (m : Moment) : Int :=
  60 * m.time.hour + m.time.minute - m.offset

/-- The year of the date in universal time. -/
def Moment.universalYear (m : Moment) : Int :=
  if m.date.month = 1 && m.date.day = 1 && m.universalMinute < 0 then m.date.year - 1
  else if m.date.month = 12 && m.date.day = 31 && 1440 ≤ m.universalMinute then m.date.year + 1
  else m.date.year

def Moment.isValid (m : Moment) : Bool :=
  m.date.isValid && m.time.isValid && isSupportedYear m.date.year && isSupportedYear m.universalYear

/-- Whether a text is a point in time. -/
def isTimestamp (s : String) : Bool :=
  (moment? s.toList).any Moment.isValid

/-- A point in time as text. -/
structure Timestamp where
  text : String
  valid : isTimestamp text = true

/-- The first second of the year 1970. -/
def Timestamp.epoch : Timestamp :=
  ⟨"1970-01-01T00:00:00Z", by decide⟩

end WidgetShorthand.Text
