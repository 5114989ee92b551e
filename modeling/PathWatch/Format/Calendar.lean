import PathWatch.Format.DateTime

/-!
Dates and times of day in UTC, by the Gregorian calendar carried on before its
introduction and without leap seconds. Year 0 precedes year 1.
-/
namespace PathWatch.Calendar

def isLeap (year : Int) : Bool :=
  year % 4 == 0 && (year % 100 != 0 || year % 400 == 0)

def daysBefore (year : Int) : Int :=
  365 * year + (year + 3) / 4 - (year + 99) / 100 + (year + 399) / 400

def epochDay : Int := 719528

/-- The average length of a year points at the right one or at a neighbour. -/
def yearOfDay (day : Int) : Int :=
  let guess := 400 * day / 146097
  if day < daysBefore guess then guess - 1
  else if daysBefore (guess + 1) ≤ day then guess + 1
  else guess

def monthLengths (leap : Bool) : List Nat :=
  [31, if leap then 29 else 28, 31, 30, 31, 30, 31, 31, 30, 31, 30, 31]

def monthAndDay (month : Nat) : List Nat → Nat → Nat × Nat
  | [], day => (month, day + 1)
  | length :: rest, day =>
    if day < length then (month, day + 1) else monthAndDay (month + 1) rest (day - length)

def Moment.ofTime (t : Time) : Moment :=
  let day := t.seconds.fdiv 86400 + epochDay
  let rest := (t.seconds.fmod 86400).toNat
  let year := yearOfDay day
  let (month, dayOfMonth) := monthAndDay 1 (monthLengths (isLeap year)) (day - daysBefore year).toNat
  { year, month, day := dayOfMonth
    hour := rest / 3600
    minute := rest / 60 % 60
    second := rest % 60
    nanosecond := t.subsecond }

def firstYear : Int := -262143
def lastYear : Int := 262142

def Moment.Shown (m : Moment) : Prop := firstYear ≤ m.year ∧ m.year ≤ lastYear

instance (m : Moment) : Decidable m.Shown := inferInstanceAs (Decidable (_ ∧ _))

def itemsOf : List Char → List Item
  | '%' :: 'Y' :: cs => .year :: itemsOf cs
  | '%' :: 'm' :: cs => .month :: itemsOf cs
  | '%' :: 'd' :: cs => .day :: itemsOf cs
  | '%' :: 'H' :: cs => .hour :: itemsOf cs
  | '%' :: 'M' :: cs => .minute :: itemsOf cs
  | '%' :: 'S' :: cs => .second :: itemsOf cs
  | '%' :: '.' :: '3' :: 'f' :: cs => .millis :: itemsOf cs
  | c :: cs => .literal c :: itemsOf cs
  | [] => []

def gregorian : Library where
  Local := Moment
  ofTime? t := if (Moment.ofTime t).Shown then some (Moment.ofTime t) else none
  moment m := m
  ahead _ := 0
  rfc3339 f useZ m := m.stamped f useZ 0
  format pattern m := m.written (itemsOf pattern.toList)

namespace Moment

def clock (m : Moment) : String := gregorian.clock m

def rfc3339 (m : Moment) : String := gregorian.timestamp m

def absolute (m : Moment) : String := gregorian.absolute m

end Moment

end PathWatch.Calendar
