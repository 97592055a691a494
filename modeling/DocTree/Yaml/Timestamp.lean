import DocTree.Yaml.Error

/-!
# Timestamps

The written form of dates and times in YAML: `2001-12-14`, or a date, a time and possibly an offset.
-/

namespace DocTree.Yaml

/-- The time of day in a timestamp: the digits behind the point, and the offset with its sign. -/
structure TimeParts where
  hour : Nat
  minute : Nat
  second : Nat
  fraction : List Char
  offset : Option Int
  deriving DecidableEq, Repr

/-- The numbers in a timestamp; `full` tells that month and day have two digits each. -/
structure Timestamp where
  year : Nat
  month : Nat
  day : Nat
  full : Bool
  time : Option TimeParts
  deriving DecidableEq, Repr

namespace Timestamp

/-- The number that ASCII digits stand for. -/
def number (ds : List Char) : Nat := Number.ofDigits 10 (ds.filterMap Number.digitValue?)

/-- A number of `least` to `most` digits, as many as there are, and the rest. -/
def digits? (least most : Nat) (s : List Char) : Option (List Char × List Char) :=
  let ds := (s.take most).takeWhile Char.isDigit
  if least ≤ ds.length then some (ds, s.drop ds.length) else none

/-- The rest behind the character `c`. -/
def expect? (c : Char) : List Char → Option (List Char)
  | d :: r => if c == d then some r else none
  | [] => none

def isGapChar (c : Char) : Bool := c == ' ' || c == '\t'

/-- The offset that makes up a text: nothing, `Z`, or hours and possibly minutes behind a sign. -/
def offset? (s : List Char) : Option (Option Int) :=
  match s.dropWhile isGapChar with
  | [] => if s.isEmpty then some none else none
  | ['Z'] => some (some 0)
  | c :: r => do
    if c != '+' && c != '-' then failure
    let (h, r) ← digits? 1 2 r
    let m ← match r with
      | [] => some []
      | r => do
        let (m, r) ← digits? 2 2 (← expect? ':' r)
        if r.isEmpty then some m else failure
    let span : Int := number h * 60 + number m
    return some (if c == '-' then -span else span)

/-- The time that makes up a text. -/
def time? (s : List Char) : Option TimeParts := do
  let s ← match s with
    | 'T' :: r => some r
    | 't' :: r => some r
    | c :: r => if isGapChar c then some (r.dropWhile isGapChar) else none
    | [] => none
  let (h, s) ← digits? 1 2 s
  let (m, s) ← digits? 2 2 (← expect? ':' s)
  let (sec, s) ← digits? 2 2 (← expect? ':' s)
  let (fraction, s) := match s with
    | '.' :: r => (r.takeWhile Char.isDigit, r.dropWhile Char.isDigit)
    | s => ([], s)
  let offset ← offset? s
  return ⟨number h, number m, number sec, fraction, offset⟩

def parse? (s : List Char) : Option Timestamp := do
  let (y, s) ← digits? 4 4 s
  let (m, s) ← digits? 1 2 (← expect? '-' s)
  let (d, s) ← digits? 1 2 (← expect? '-' s)
  let time ← if s.isEmpty then some none else some <$> time? s
  return ⟨number y, number m, number d, m.length == 2 && d.length == 2, time⟩

/-- The millionths in the digits behind the point; further digits are cut off. -/
def micros (fraction : List Char) : Nat :=
  let ds := fraction.take 6
  number (ds ++ List.replicate (6 - ds.length) '0')

/-- The date or the point in time, if its parts are in range. -/
def resolve (t : Timestamp) : Except Calendar.Fault (Calendar.Date ⊕ Calendar.DateTime) :=
  let date : Calendar.Date := ⟨t.year, t.month, t.day⟩
  match t.time with
  | none => .inl <$> date.check
  | some c => .inr <$>
    Calendar.DateTime.check ⟨date, c.hour, c.minute, c.second, micros c.fraction, c.offset⟩

end Timestamp
end DocTree.Yaml
