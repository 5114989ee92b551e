import PathWatch.Number.Rounding
import PathWatch.Time

/-!
Dates and times of day, how they are written, and what the program asks of the
library that breaks a time down into them and writes them.
-/
namespace PathWatch.Calendar

structure Moment where
  year : Int
  month : Nat
  day : Nat
  hour : Nat
  minute : Nat
  second : Nat
  nanosecond : Nat
deriving DecidableEq, Repr

/-- Four digits at least, and a sign where they are not a year from 0 to 9999. -/
def yearText : Int → String
  | .ofNat y => if y ≤ 9999 then Number.padded 4 y else s!"+{Number.padded 4 y}"
  | .negSucc y => s!"-{Number.padded 4 (y + 1)}"

/-- How much of a second is written; `auto` leaves out zeros at the end in groups of three. -/
inductive SecondsFormat
  | seconds
  | millis
  | micros
  | nanos
  | auto
deriving DecidableEq, Repr

def SecondsFormat.text (nanosecond : Nat) : SecondsFormat → String
  | seconds => ""
  | millis => s!".{Number.padded 3 (nanosecond / 1000000)}"
  | micros => s!".{Number.padded 6 (nanosecond / 1000)}"
  | nanos => s!".{Number.padded 9 nanosecond}"
  | auto =>
    if nanosecond = 0 then ""
    else if nanosecond % 1000000 = 0 then s!".{Number.padded 3 (nanosecond / 1000000)}"
    else if nanosecond % 1000 = 0 then s!".{Number.padded 6 (nanosecond / 1000)}"
    else s!".{Number.padded 9 nanosecond}"

def offsetText (useZ : Bool) (ahead : Int) : String :=
  if useZ && ahead == 0 then "Z"
  else
    let sign := if ahead < 0 then "-" else "+"
    let minutes := ahead.natAbs / 60
    s!"{sign}{Number.padded 2 (minutes / 60)}:{Number.padded 2 (minutes % 60)}"

/-- The parts of a pattern by which a moment is written; `millis` has a point in front. -/
inductive Item
  | year
  | month
  | day
  | hour
  | minute
  | second
  | millis
  | literal (c : Char)
deriving DecidableEq, Repr

namespace Item

def code : Item → String
  | year => "%Y"
  | month => "%m"
  | day => "%d"
  | hour => "%H"
  | minute => "%M"
  | second => "%S"
  | millis => "%.3f"
  | literal c => c.toString

def text (m : Moment) : Item → String
  | year => yearText m.year
  | month => Number.padded 2 m.month
  | day => Number.padded 2 m.day
  | hour => Number.padded 2 m.hour
  | minute => Number.padded 2 m.minute
  | second => Number.padded 2 m.second
  | millis => SecondsFormat.millis.text m.nanosecond
  | literal c => c.toString

end Item

namespace Moment

def written (m : Moment) (items : List Item) : String := String.join (items.map (Item.text m))

def date : List Item := [.year, .literal '-', .month, .literal '-', .day]

def timeOfDay : List Item := [.hour, .literal ':', .minute, .literal ':', .second]

def stamped (m : Moment) (f : SecondsFormat) (useZ : Bool) (ahead : Int) : String :=
  s!"{m.written date}T{m.written timeOfDay}{f.text m.nanosecond}{offsetText useZ ahead}"

end Moment

/-- A library of dates and times. Not every time has a local one; `ahead` says by
how many seconds. -/
structure Library where
  Local : Type
  ofTime? : Time → Option Local
  moment : Local → Moment
  ahead : Local → Int
  rfc3339 : SecondsFormat → (useZ : Bool) → Local → String
  format : (pattern : String) → Local → String

namespace Library

variable (lib : Library)

def clock (d : lib.Local) : String := lib.format "%H:%M:%S%.3f" d

def timestamp (d : lib.Local) : String := lib.rfc3339 .millis false d

def absolute (d : lib.Local) : String := lib.format "%Y-%m-%d %H:%M:%S" d

def timestampOf (t : Time) : Option String := (lib.ofTime? t).map lib.timestamp

def absoluteOf (t : Time) : Option String := (lib.ofTime? t).map lib.absolute

end Library

end PathWatch.Calendar
