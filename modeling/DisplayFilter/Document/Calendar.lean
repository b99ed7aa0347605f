/-!
# Dates and moments

Dates of the calendar that has a leap day in every fourth year, but in no hundredth one that is not a four
hundredth one, and moments with a time of day. A moment may tell how far its clock is from universal time;
two such moments are the same when they are the same in universal time.
-/

namespace DisplayFilter.Calendar

structure Date where
  year : Nat
  month : Nat
  day : Nat
  deriving DecidableEq, Repr, Inhabited

/-- A date with a time of day. The offset from universal time counts minutes. -/
structure Moment where
  date : Date
  hour : Nat
  minute : Nat
  second : Nat
  micros : Nat
  offset : Option Int
  deriving DecidableEq, Repr, Inhabited

inductive Fault where
  | year (year : Nat)
  | month
  | day
  | hour
  | minute
  | second
  | offset (minutes : Int)
  deriving DecidableEq, Repr

/-- A number in decimal digits, so many at least. -/
def padded (width n : Nat) : String :=
  let digits := toString n
  String.ofList (List.replicate (width - digits.length) '0') ++ digits

/-- The literal of a span of minutes, in days and seconds from the full day before it. -/
def spanLiteral (minutes : Int) : String :=
  let days := minutes.fdiv 1440
  let seconds := 60 * minutes.fmod 1440
  let parts := (if days = 0 then [] else ["days=" ++ toString days]) ++
    (if seconds = 0 then [] else ["seconds=" ++ toString seconds])
  "datetime.timedelta(" ++ (if parts.isEmpty then "0" else ", ".intercalate parts) ++ ")"

def Fault.message : Fault → String
  | .year number => "year " ++ toString number ++ " is out of range"
  | .month => "month must be in 1..12"
  | .day => "day is out of range for month"
  | .hour => "hour must be in 0..23"
  | .minute => "minute must be in 0..59"
  | .second => "second must be in 0..59"
  | .offset minutes =>
    "offset must be a timedelta strictly between -timedelta(hours=24) and timedelta(hours=24), not " ++
      spanLiteral minutes ++ "."

def isLeap (year : Nat) : Bool :=
  year % 4 == 0 && (year % 100 != 0 || year % 400 == 0)

def daysIn (year month : Nat) : Nat :=
  if month = 2 then (if isLeap year then 29 else 28)
  else if [4, 6, 9, 11].contains month then 30
  else 31

/-- The days of so many months from the beginning of a year. -/
def daysOfMonths (year : Nat) : Nat → Nat
  | 0 => 0
  | months + 1 => daysOfMonths year months + daysIn year (months + 1)

namespace Date

/-- The date of a year, a month and a day. -/
def make (year month day : Nat) : Except Fault Date :=
  if year = 0 ∨ 9999 < year then .error (.year year)
  else if month = 0 ∨ 12 < month then .error .month
  else if day = 0 ∨ daysIn year month < day then .error .day
  else .ok ⟨year, month, day⟩

/-- The days up to a date, counted from the first year on. -/
def dayNumber (date : Date) : Nat :=
  let years := date.year - 1
  365 * years + years / 4 - years / 100 + years / 400 + daysOfMonths date.year (date.month - 1) +
    date.day

def text (date : Date) : String :=
  padded 4 date.year ++ "-" ++ padded 2 date.month ++ "-" ++ padded 2 date.day

def literal (date : Date) : String :=
  "datetime.date(" ++ ", ".intercalate ([date.year, date.month, date.day].map toString) ++ ")"

end Date

namespace Moment

/-- The moment with these parts, if its clock shows it and is less than a day from universal time. -/
def make (year month day hour minute second micros : Nat) (offset : Option Int) :
    Except Fault Moment := do
  if let some minutes := offset then
    if minutes ≤ -1440 ∨ 1440 ≤ minutes then throw (.offset minutes)
  let date ← Date.make year month day
  if 23 < hour then throw .hour
  if 59 < minute then throw .minute
  if 59 < second then throw .second
  return ⟨date, hour, minute, second, micros, offset⟩

/-- The microseconds up to a moment, by its own clock. -/
def localMicros (moment : Moment) : Nat :=
  let minutes := (moment.date.dayNumber * 24 + moment.hour) * 60 + moment.minute
  (minutes * 60 + moment.second) * 1000000 + moment.micros

/-- The microseconds up to a moment in universal time, if it tells its offset. -/
def universalMicros? (moment : Moment) : Option Int :=
  moment.offset.map fun minutes => (moment.localMicros : Int) - minutes * 60000000

def offsetText (minutes : Int) : String :=
  (if minutes < 0 then "-" else "+") ++ padded 2 (minutes.natAbs / 60) ++ ":" ++
    padded 2 (minutes.natAbs % 60)

def text (moment : Moment) : String :=
  moment.date.text ++ " " ++ padded 2 moment.hour ++ ":" ++ padded 2 moment.minute ++ ":" ++
    padded 2 moment.second ++ (if moment.micros = 0 then "" else "." ++ padded 6 moment.micros) ++
    (moment.offset.map offsetText).getD ""

def offsetLiteral (minutes : Int) : String :=
  if minutes = 0 then "tzinfo=datetime.timezone.utc"
  else "tzinfo=datetime.timezone(" ++ spanLiteral minutes ++ ")"

/-- The literal of a moment; seconds that are nought are left out. -/
def literal (moment : Moment) : String :=
  let seconds :=
    if moment.micros ≠ 0 then [moment.second, moment.micros]
    else if moment.second ≠ 0 then [moment.second]
    else []
  let numbers :=
    [moment.date.year, moment.date.month, moment.date.day, moment.hour, moment.minute] ++ seconds
  "datetime.datetime(" ++
    ", ".intercalate (numbers.map toString ++ (moment.offset.map offsetLiteral).toList) ++ ")"

end Moment

end DisplayFilter.Calendar
