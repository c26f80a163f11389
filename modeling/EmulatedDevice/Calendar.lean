/-!
# Dates and times of day

A date of the proleptic Gregorian calendar in the years 1 to 9999, and a point of
time that may carry its offset from universal time. A date that does not exist is
refused with the first of its parts that is out of range.
-/

namespace EmulatedDevice

structure Date where
  year : Nat
  month : Nat
  day : Nat
  deriving DecidableEq, Repr

/-- A date with a time of day and, when known, the offset from universal time in minutes. -/
structure DateTime where
  date : Date
  hour : Nat
  minute : Nat
  second : Nat
  microsecond : Nat
  offset : Option Int
  deriving DecidableEq, Repr

/-- The first part of a date or time that is out of range. -/
inductive CalendarFault where
  | year (given : Nat)
  | month
  | day
  | hour
  | minute
  | second
  | offset (minutes : Int)
  deriving DecidableEq, Repr

namespace Calendar

def isLeapYear (year : Nat) : Bool :=
  year % 4 == 0 && (year % 100 != 0 || year % 400 == 0)

def daysInMonth (year month : Nat) : Nat :=
  if month = 2 then (if isLeapYear year then 29 else 28)
  else if month = 4 ∨ month = 6 ∨ month = 9 ∨ month = 11 then 30
  else 31

def date (year month day : Nat) : Except CalendarFault Date :=
  if year < 1 ∨ 9999 < year then .error (.year year)
  else if month < 1 ∨ 12 < month then .error .month
  else if day < 1 ∨ daysInMonth year month < day then .error .day
  else .ok ⟨year, month, day⟩

/-- The point of time with the given parts; the offset has to stay below a day. -/
def dateTime (year month day hour minute second microsecond : Nat) (offset : Option Int) :
    Except CalendarFault DateTime := do
  if let some minutes := offset then
    if minutes.natAbs ≥ 24 * 60 then throw (.offset minutes)
  let date ← date year month day
  if hour > 23 then throw .hour
  if minute > 59 then throw .minute
  if second > 59 then throw .second
  return ⟨date, hour, minute, second, microsecond, offset⟩

end Calendar

def zeroPadded (width n : Nat) : String :=
  let digits := Nat.toDigits 10 n
  .ofList (List.replicate (width - digits.length) '0' ++ digits)

namespace Date

def iso (d : Date) : String :=
  zeroPadded 4 d.year ++ "-" ++ zeroPadded 2 d.month ++ "-" ++ zeroPadded 2 d.day

def term (d : Date) : String :=
  "datetime.date(" ++ ", ".intercalate ([d.year, d.month, d.day].map toString) ++ ")"

end Date

namespace DateTime

/-- A span of minutes as a term in whole days and the seconds that are left. -/
def spanTerm (minutes : Int) : String :=
  let days := minutes.fdiv (24 * 60)
  let seconds := minutes.fmod (24 * 60) * 60
  let parts := (if days = 0 then [] else ["days=" ++ toString days])
    ++ (if seconds = 0 then [] else ["seconds=" ++ toString seconds])
  "datetime.timedelta(" ++ (if parts = [] then "0" else ", ".intercalate parts) ++ ")"

def offsetTerm (minutes : Int) : String :=
  if minutes = 0 then "datetime.timezone.utc"
  else "datetime.timezone(" ++ spanTerm minutes ++ ")"

/-- The point of time as a term; seconds and their fraction are left out where they are zero. -/
def term (t : DateTime) : String :=
  let fine := if t.microsecond ≠ 0 then [t.second, t.microsecond]
    else if t.second ≠ 0 then [t.second] else []
  let parts := [t.date.year, t.date.month, t.date.day, t.hour, t.minute] ++ fine
  let zone := match t.offset with
    | none => []
    | some minutes => ["tzinfo=" ++ offsetTerm minutes]
  "datetime.datetime(" ++ ", ".intercalate (parts.map toString ++ zone) ++ ")"

def iso (t : DateTime) : String :=
  let fraction := if t.microsecond = 0 then "" else "." ++ zeroPadded 6 t.microsecond
  let zone := match t.offset with
    | none => ""
    | some minutes =>
      (if minutes < 0 then "-" else "+") ++ zeroPadded 2 (minutes.natAbs / 60) ++ ":"
        ++ zeroPadded 2 (minutes.natAbs % 60)
  t.date.iso ++ " " ++ zeroPadded 2 t.hour ++ ":" ++ zeroPadded 2 t.minute ++ ":"
    ++ zeroPadded 2 t.second ++ fraction ++ zone

end DateTime

def CalendarFault.message : CalendarFault → String
  | .year given => "year " ++ toString given ++ " is out of range"
  | .month => "month must be in 1..12"
  | .day => "day is out of range for month"
  | .hour => "hour must be in 0..23"
  | .minute => "minute must be in 0..59"
  | .second => "second must be in 0..59"
  | .offset minutes =>
    "offset must be a timedelta strictly between -timedelta(hours=24) and timedelta(hours=24), not "
      ++ DateTime.spanTerm minutes ++ "."

end EmulatedDevice
