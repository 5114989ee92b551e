import PathWatch.Time

/-!
The settings of a monitor. All numbers fit in 64 bits. A poll delay is never
below 20 milliseconds, and a diagnostics queue holds at least one item.
-/
namespace PathWatch

structure Config where
  delayMs : Nat := 1000
  recursive : Bool := false
  checksPerRun : Nat := 1000
  slowCaptureWarnMs : Nat := 5000
  diagnosticsCapacity : Nat := 256
deriving DecidableEq, Repr, Inhabited

def minDelay : Duration := .ofMillis 20

def maxMillis : Nat := UInt64.size - 1

def Duration.clampDelay (d : Duration) : Duration :=
  if d.nanos < minDelay.nanos then minDelay else d

def Duration.delayMillis (d : Duration) : Nat := min d.millis maxMillis

theorem Duration.millis_clampDelay (d : Duration) : d.clampDelay.millis = max d.millis 20 := by
  have least : minDelay.millis = 20 := millis_ofMillis 20
  unfold clampDelay
  split
  case isTrue h =>
    have below : d.millis ≤ 20 := least ▸ Nat.div_le_div_right (Nat.le_of_lt h)
    rw [least, Nat.max_eq_right below]
  case isFalse h =>
    have above : 20 ≤ d.millis := least ▸ Nat.div_le_div_right (Nat.le_of_not_lt h)
    rw [Nat.max_eq_left above]

theorem Duration.delayMillis_clampDelay (d : Duration) :
    d.clampDelay.delayMillis = min (max d.millis 20) maxMillis := by
  rw [delayMillis, millis_clampDelay]

namespace Config

def normalized (c : Config) : Config :=
  { c with
    delayMs := (Duration.ofMillis c.delayMs).clampDelay.delayMillis
    diagnosticsCapacity := max c.diagnosticsCapacity 1 }

def delay (c : Config) : Duration := .ofMillis c.delayMs

def slowCaptureThreshold (c : Config) : Duration := .ofMillis c.slowCaptureWarnMs

theorem normalized_eq (c : Config) :
    c.normalized =
      { c with
        delayMs := min (max c.delayMs 20) maxMillis
        diagnosticsCapacity := max c.diagnosticsCapacity 1 } := by
  simp only [normalized, Duration.delayMillis_clampDelay, Duration.millis_ofMillis]

theorem floor_stays {m top : Nat} (h : 20 ≤ top) :
    min (max (min (max m 20) top) 20) top = min (max m 20) top := by omega

theorem normalized_normalized (c : Config) : c.normalized.normalized = c.normalized := by
  rw [normalized_eq c, normalized_eq]
  simp only [mk.injEq, true_and]
  refine ⟨floor_stays ?_, by omega⟩
  rw [maxMillis, UInt64.size]; omega

end Config

end PathWatch
