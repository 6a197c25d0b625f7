/-! Calendar dates and moments, with the texts they are written as. -/
namespace CeilingGate

structure Date where
  year : Nat
  month : Nat
  day : Nat
deriving DecidableEq, Repr, Inhabited

/-- The offset counts seconds east of the zero meridian; a moment may lack one. -/
structure Moment where
  date : Date
  hour : Nat
  minute : Nat
  second : Nat
  microsecond : Nat
  offset? : Option Int
deriving DecidableEq, Repr, Inhabited

/-- A number padded with zeros. -/
def padded (places n : Nat) : String :=
  let digits := Nat.toDigits 10 n
  String.ofList (List.replicate (places - digits.length) '0' ++ digits)

namespace Date

def isLeap (year : Nat) : Bool := year % 4 == 0 && (year % 100 != 0 || year % 400 == 0)

def daysIn (year month : Nat) : Nat :=
  match month with
  | 2 => if isLeap year then 29 else 28
  | 4 | 6 | 9 | 11 => 30
  | _ => 31

/-- Years run from 1, and months and days as the calendar has them. -/
def isValid (d : Date) : Bool :=
  1 ≤ d.year && d.year ≤ 9999 && 1 ≤ d.month && d.month ≤ 12 && 1 ≤ d.day &&
    d.day ≤ daysIn d.year d.month

def text (d : Date) : String := padded 4 d.year ++ "-" ++ padded 2 d.month ++ "-" ++ padded 2 d.day

def shown (d : Date) : String :=
  "datetime.date(" ++ toString d.year ++ ", " ++ toString d.month ++ ", " ++ toString d.day ++ ")"

/-- Days since the first day of the year 1. -/
def dayNumber (d : Date) : Int :=
  let y := d.year - 1
  let months := (List.range (d.month - 1)).foldl (fun days m => days + daysIn d.year (m + 1)) 0
  ((365 * y + y / 4 - y / 100 + y / 400 + months + d.day : Nat) : Int)

def lt (a b : Date) : Bool := a.dayNumber < b.dayNumber

end Date

namespace Moment

def isValid (m : Moment) : Bool :=
  m.date.isValid && m.hour < 24 && m.minute < 60 && m.second < 60 &&
    (m.offset?.all fun o => o.natAbs < 86400)

def offsetText (offset : Int) : String :=
  let minutes := offset.natAbs / 60
  (if offset < 0 then "-" else "+") ++ padded 2 (minutes / 60) ++ ":" ++ padded 2 (minutes % 60)

def text (m : Moment) : String :=
  m.date.text ++ " " ++ padded 2 m.hour ++ ":" ++ padded 2 m.minute ++ ":" ++ padded 2 m.second ++
    (if m.microsecond == 0 then "" else "." ++ padded 6 m.microsecond) ++
    ((m.offset?.map offsetText).getD "")

/-- A span below a day, written with whole days and seconds that are not negative. -/
def spanShown (offset : Int) : String :=
  let days := offset / 86400
  "datetime.timedelta(" ++ (if days == 0 then "" else "days=" ++ toString days ++ ", ") ++
    "seconds=" ++ toString (offset % 86400) ++ ")"

def zoneShown (offset : Int) : String :=
  if offset == 0 then "datetime.timezone.utc" else "datetime.timezone(" ++ spanShown offset ++ ")"

def shown (m : Moment) : String :=
  let parts := [m.date.year, m.date.month, m.date.day, m.hour, m.minute] ++
    (if m.second == 0 && m.microsecond == 0 then [] else [m.second]) ++
    (if m.microsecond == 0 then [] else [m.microsecond])
  "datetime.datetime(" ++ ", ".intercalate (parts.map toString) ++
    ((m.offset?.map fun o => ", tzinfo=" ++ zoneShown o).getD "") ++ ")"

/-- Microseconds on the moment's own clock. -/
def localTicks (m : Moment) : Int :=
  (((m.date.dayNumber * 24 + m.hour) * 60 + m.minute) * 60 + m.second) * 1000000 + m.microsecond

/-- Microseconds on the clock at the zero meridian, for a moment with an offset. -/
def ticks? (m : Moment) : Option Int := m.offset?.map fun o => m.localTicks - o * 1000000

/-- Moments with an offset are equal when they are simultaneous. -/
def eqv (a b : Moment) : Bool :=
  match a.ticks?, b.ticks? with
  | some x, some y => x == y
  | none, none => a.localTicks == b.localTicks
  | _, _ => false

/-- Earlier; undecided when just one of the two has an offset. -/
def lt? (a b : Moment) : Option Bool :=
  match a.ticks?, b.ticks? with
  | some x, some y => some (x < y)
  | none, none => some (a.localTicks < b.localTicks)
  | _, _ => none

end Moment

end CeilingGate
