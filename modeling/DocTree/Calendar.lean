import DocTree.Number.Shortest

/-!
# Dates and times

Calendar dates and points in time of the proleptic Gregorian calendar, with the checks on their
parts and their written forms.
-/

namespace DocTree.Calendar
open Number (natText padNat)

structure Date where
  year : Nat
  month : Nat
  day : Nat
  deriving DecidableEq, Repr

/-- A date with a time of day; `offset` is the distance from universal time in minutes. -/
structure DateTime where
  date : Date
  hour : Nat
  minute : Nat
  second : Nat
  micro : Nat
  offset : Option Int
  deriving DecidableEq, Repr

/-- A part of a date or time that lies outside its range. -/
inductive Fault
  | year (y : Nat)
  | month
  | day
  | hour
  | minute
  | second
  | offset (minutes : Int)
  deriving DecidableEq, Repr

def isLeap (y : Nat) : Bool := y % 4 == 0 && (y % 100 != 0 || y % 400 == 0)

def daysInMonth (y m : Nat) : Nat :=
  if m == 2 then (if isLeap y then 29 else 28)
  else if m == 4 || m == 6 || m == 9 || m == 11 then 30 else 31

/-- The date, if its parts are in range. -/
def Date.check (d : Date) : Except Fault Date :=
  if d.year < 1 || 9999 < d.year then .error (.year d.year)
  else if d.month < 1 || 12 < d.month then .error .month
  else if d.day < 1 || daysInMonth d.year d.month < d.day then .error .day
  else .ok d

/-- The point in time, if its parts are in range; the offset is looked at first. -/
def DateTime.check (t : DateTime) : Except Fault DateTime := do
  match t.offset with
  | some m => if 1440 ≤ m.natAbs then throw (.offset m)
  | none => pure ()
  let _ ← t.date.check
  if 23 < t.hour then throw .hour
  if 59 < t.minute then throw .minute
  if 59 < t.second then throw .second
  return t

/-- The days before the date since the start of the calendar. -/
def Date.days (d : Date) : Nat :=
  let y := d.year - 1
  y * 365 + y / 4 - y / 100 + y / 400
    + (List.range (d.month - 1)).foldl (fun n m => n + daysInMonth d.year (m + 1)) 0 + d.day

/-- Microseconds since the start of the calendar, brought to universal time. -/
def DateTime.instant (t : DateTime) : Int :=
  let s : Int := t.date.days * 86400 + t.hour * 3600 + t.minute * 60 + t.second
  (s - t.offset.getD 0 * 60) * 1000000 + t.micro

/-- The date as `2001-02-03`. -/
def Date.text (d : Date) : String :=
  padNat 4 d.year ++ "-" ++ padNat 2 d.month ++ "-" ++ padNat 2 d.day

/-- An offset as `+05:30`. -/
def offsetText (minutes : Int) : String :=
  let m := minutes.natAbs
  (if minutes < 0 then "-" else "+") ++ padNat 2 (m / 60) ++ ":" ++ padNat 2 (m % 60)

/-- The point in time as `2001-02-03 04:05:06.000007+00:00`. -/
def DateTime.text (t : DateTime) : String :=
  t.date.text ++ " " ++ padNat 2 t.hour ++ ":" ++ padNat 2 t.minute ++ ":" ++ padNat 2 t.second
    ++ (if t.micro == 0 then "" else "." ++ padNat 6 t.micro)
    ++ (t.offset.map offsetText).getD ""

/-- A span of minutes in whole days and the seconds above them. -/
def spanText (minutes : Int) : String :=
  let days := minutes.fdiv 1440
  let seconds := (minutes.fmod 1440).toNat * 60
  let parts := (if days == 0 then [] else ["days=" ++ Number.intText days])
    ++ (if seconds == 0 then [] else ["seconds=" ++ natText seconds])
  "datetime.timedelta(" ++ (if parts.isEmpty then "0" else ", ".intercalate parts) ++ ")"

/-- The date as an expression that builds it. -/
def Date.expression (d : Date) : String :=
  "datetime.date(" ++ natText d.year ++ ", " ++ natText d.month ++ ", " ++ natText d.day ++ ")"

/-- The offset as an expression that builds it. -/
def offsetExpression (minutes : Int) : String :=
  if minutes == 0 then "datetime.timezone.utc"
  else "datetime.timezone(" ++ spanText minutes ++ ")"

/-- The point in time as an expression that builds it; seconds and microseconds of zero are left
out at the end. -/
def DateTime.expression (t : DateTime) : String :=
  let tail := if t.micro != 0 then [t.second, t.micro] else if t.second != 0 then [t.second] else []
  let parts := [t.date.year, t.date.month, t.date.day, t.hour, t.minute] ++ tail
  "datetime.datetime(" ++ ", ".intercalate (parts.map natText)
    ++ (t.offset.map fun m => ", tzinfo=" ++ offsetExpression m).getD "" ++ ")"

def Fault.message : Fault → String
  | .year y => "year " ++ natText y ++ " is out of range"
  | .month => "month must be in 1..12"
  | .day => "day is out of range for month"
  | .hour => "hour must be in 0..23"
  | .minute => "minute must be in 0..59"
  | .second => "second must be in 0..59"
  | .offset m =>
    "offset must be a timedelta strictly between -timedelta(hours=24) and timedelta(hours=24), not "
      ++ spanText m ++ "."

end DocTree.Calendar
