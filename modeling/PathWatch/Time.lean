/-!
Points in time and spans between them, both counted in whole nanoseconds.
A point may lie before 1970; its seconds round toward the past, so the part
below a second is never negative.
-/
namespace PathWatch

/-- Nanoseconds since 1970-01-01T00:00:00Z. -/
structure Time where
  nanos : Int
deriving DecidableEq, Repr, Inhabited

namespace Time

def perSecond : Nat := 1000000000

def ofParts (seconds : Int) (nanos : Nat) : Time := ⟨seconds * perSecond + nanos⟩

def ofMillis (millis : Nat) : Time := ⟨millis * 1000000⟩

def seconds (t : Time) : Int := t.nanos.fdiv perSecond

def subsecond (t : Time) : Nat := (t.nanos.fmod perSecond).toNat

def beforeEpoch (t : Time) : Bool := decide (t.nanos < 0)

end Time

structure Duration where
  nanos : Nat
deriving DecidableEq, Repr, Inhabited

namespace Duration

def ofParts (seconds nanos : Nat) : Duration := ⟨seconds * Time.perSecond + nanos⟩

def ofMillis (millis : Nat) : Duration := ⟨millis * 1000000⟩

def seconds (d : Duration) : Nat := d.nanos / Time.perSecond

def subsecond (d : Duration) : Nat := d.nanos % Time.perSecond

def millis (d : Duration) : Nat := d.nanos / 1000000

theorem millis_ofMillis (m : Nat) : (ofMillis m).millis = m := by
  simp [ofMillis, millis]

end Duration

end PathWatch
