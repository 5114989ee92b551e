import PathWatch.Config
import PathWatch.Diagnostics
import PathWatch.Snapshot

/-!
The paths that are watched, each with the snapshot that its next poll is
compared with, together with the listeners and receivers. A watch carries a
serial number that no earlier one had, so a poll can tell whether the watch it
started from is still the one in place.
-/
namespace PathWatch

structure Watch (H : Type) where
  file : H
  recursive : Bool
  last : Option Snapshot
  serial : Nat

structure Watcher (H L : Type) where
  watches : List (FileId × Watch H)
  bindings : Bindings L
  diagnostics : Diagnostics
  closed : Bool
  delayMs : Nat
  checksPerRun : Nat
  slowAfter : Duration
  serial : Nat
  cycles : Nat

namespace Watcher

variable {H L : Type}

def new (delay : Duration) (checksPerRun : Nat) (slowAfter : Duration)
    (diagnosticsCapacity : Nat) : Watcher H L where
  watches := []
  bindings := {}
  diagnostics := .ofCapacity diagnosticsCapacity
  closed := false
  delayMs := delay.clampDelay.delayMillis
  checksPerRun
  slowAfter
  serial := 0
  cycles := 0

def ofConfig (c : Config) : Watcher H L :=
  new c.delay c.checksPerRun c.slowCaptureThreshold c.diagnosticsCapacity

def delay (w : Watcher H L) : Duration := .ofMillis w.delayMs

def setDelay (d : Duration) (w : Watcher H L) : Watcher H L :=
  { w with delayMs := d.clampDelay.delayMillis }

def setChecksPerRun (n : Nat) (w : Watcher H L) : Watcher H L := { w with checksPerRun := n }

def watch? (w : Watcher H L) (id : FileId) : Option (Watch H) := w.watches.lookup id

def isWatching (w : Watcher H L) (id : FileId) : Bool := (w.watch? id).isSome

def isCurrent (w : Watcher H L) (id : FileId) (serial : Nat) : Bool :=
  (w.watch? id).any fun x => x.serial == serial

def insert (id : FileId) (file : H) (recursive : Bool) (baseline : Option Snapshot)
    (w : Watcher H L) : Nat × Watcher H L :=
  let serial := w.serial + 1
  (serial, { w with
    serial
    watches := Keyed.insert id ⟨file, recursive, baseline, serial⟩ w.watches })

def remove (id : FileId) (w : Watcher H L) : (Bool × Nat) × Watcher H L :=
  let (unbound, bindings) := w.bindings.unbind id
  ((w.isWatching id, unbound), { w with watches := Keyed.erase id w.watches, bindings })

/-- Stores the outcome of a poll, unless the watch is another one by now. -/
def store (id : FileId) (serial : Nat) (snapshot : Snapshot) (w : Watcher H L) : Watcher H L :=
  match w.watch? id with
  | some x =>
    if x.serial == serial then
      { w with watches := Keyed.insert id { x with last := some snapshot } w.watches }
    else w
  | none => w

def emit (d : Diagnostic) (w : Watcher H L) : Watcher H L :=
  { w with diagnostics := w.diagnostics.emit d }

def bind (id : FileId) (listener : L) (w : Watcher H L) : Nat × Watcher H L :=
  let (number, bindings) := w.bindings.bind id listener
  (number, { w with bindings })

def unbind (id : FileId) (w : Watcher H L) : Nat × Watcher H L :=
  let (count, bindings) := w.bindings.unbind id
  (count, { w with bindings })

def unbindListener (id : FileId) (number : Nat) (w : Watcher H L) : Bool × Watcher H L :=
  let (removed, bindings) := w.bindings.unbindListener id number
  (removed, { w with bindings })

def clearBindings (w : Watcher H L) : Watcher H L := { w with bindings := w.bindings.clear }

def onDiagnostics (f : Diagnostics → α × Diagnostics) (w : Watcher H L) : α × Watcher H L :=
  let (a, diagnostics) := f w.diagnostics
  (a, { w with diagnostics })

def close (w : Watcher H L) : Watcher H L :=
  { w with
    closed := true
    bindings := w.bindings.clear
    watches := []
    diagnostics := w.diagnostics.close }

theorem delayMs_setDelay (d : Duration) (w : Watcher H L) :
    (w.setDelay d).delayMs = d.clampDelay.delayMillis := rfl

end Watcher

end PathWatch
