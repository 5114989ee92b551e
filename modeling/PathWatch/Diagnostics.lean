import PathWatch.Bindings
import PathWatch.Format.Span

/-!
Reports of what went wrong without stopping a watcher, and the receivers that
they go to. A receiver has a bounded queue; a report that finds it full is lost
for that receiver alone. A receiver that was dropped is forgotten at the next
report, and closing cuts all receivers off from later ones.
-/
namespace PathWatch

inductive Diagnostic
  | captureFailed (file : FileId) (error : String)
  | listenerFailed (file : FileId) (listener : Nat) (event : ChangeEvent) (error : String)
  | listenerPanicked (file : FileId) (listener : Nat) (event : ChangeEvent) (message : String)
  | slowCapture (file : FileId) (elapsed : Duration)
deriving DecidableEq, Repr

namespace Diagnostic

def file : Diagnostic → FileId
  | captureFailed file _ => file
  | listenerFailed file _ _ _ => file
  | listenerPanicked file _ _ _ => file
  | slowCapture file _ => file

def text : Diagnostic → String
  | captureFailed file error => s!"capture of {file.text} failed: {error}"
  | listenerFailed _ listener event error =>
    s!"{listenerText listener} failed on '{event.text}': {error}"
  | listenerPanicked _ listener event message =>
    s!"{listenerText listener} panicked on '{event.text}': {message}"
  | slowCapture file elapsed => s!"capture of {file.text} took {Format.span elapsed}"

end Diagnostic

/-- `connected` says that reports still go here, `dropped` that nobody reads them. -/
structure Receiver where
  queue : List Diagnostic := []
  connected : Bool := true
  dropped : Bool := false
deriving DecidableEq, Repr

inductive Received
  | report (d : Diagnostic)
  | empty
  | disconnected
deriving DecidableEq, Repr

namespace Receiver

def offer (capacity : Nat) (d : Diagnostic) (r : Receiver) : Receiver :=
  if !r.connected then r
  else if r.dropped then { r with connected := false }
  else if r.queue.length < capacity then { r with queue := r.queue ++ [d] }
  else r

def take (r : Receiver) : Received × Receiver :=
  match r.queue with
  | d :: queue => (.report d, { r with queue })
  | [] => (if r.connected then .empty else .disconnected, r)

end Receiver

structure Diagnostics where
  capacity : Nat
  receivers : List Receiver := []
deriving DecidableEq, Repr

namespace Diagnostics

def ofCapacity (n : Nat) : Diagnostics := { capacity := max n 1 }

def subscribe (d : Diagnostics) : Nat × Diagnostics :=
  (d.receivers.length, { d with receivers := d.receivers ++ [{}] })

def emit (x : Diagnostic) (d : Diagnostics) : Diagnostics :=
  { d with receivers := d.receivers.map (·.offer d.capacity x) }

def close (d : Diagnostics) : Diagnostics :=
  { d with receivers := d.receivers.map fun r => { r with connected := false } }

def subscriberCount (d : Diagnostics) : Nat := d.receivers.countP (·.connected)

def onReceiver (i : Nat) (f : Receiver → Receiver) (d : Diagnostics) : Diagnostics :=
  { d with receivers := d.receivers.modify i f }

def receive (i : Nat) (d : Diagnostics) : Received × Diagnostics :=
  match d.receivers[i]? with
  | some r => (r.take.1, d.onReceiver i fun _ => r.take.2)
  | none => (.disconnected, d)

def drain (i : Nat) (d : Diagnostics) : List Diagnostic × Diagnostics :=
  match d.receivers[i]? with
  | some r => (r.queue, d.onReceiver i fun r => { r with queue := [] })
  | none => ([], d)

def drop (i : Nat) (d : Diagnostics) : Diagnostics :=
  d.onReceiver i fun r => { r with queue := [], dropped := true }

end Diagnostics

end PathWatch
