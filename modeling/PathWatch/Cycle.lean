import PathWatch.Capture
import PathWatch.Diff
import PathWatch.Focus
import PathWatch.Watcher

/-!
One round over the watched paths: each is captured, compared with its last
snapshot, and its changes are delivered to its listeners. Handles and listeners
may act on the watcher from inside their own calls, so everything that could
have changed meanwhile is looked up again: whether the watcher is closed before
a path, whether the watch is still in place before an event, and whether a
listener is still bound before its call.
-/
namespace PathWatch

inductive Outcome
  | accepted
  | failed (causes : List String)
  | panicked (message : Option String)
deriving DecidableEq, Repr

/-- How handles answer and listeners act in surroundings `σ`. `clock` is read
before and after a capture, and captures go down `depth` levels at most. -/
structure Surroundings (H L σ : Type) extends Queries H σ where
  call : L → ChangeEvent → σ → Outcome × σ
  clock : σ → Duration
  depth : σ → Nat

structure Delivery where
  delivered : Nat
  failed : Nat
deriving DecidableEq, Repr

structure Counts where
  polled : Nat := 0
  events : Nat := 0
  delivered : Nat := 0
  listenerFailures : Nat := 0
  captureFailures : Nat := 0
deriving DecidableEq, Repr

namespace Counts

def addDelivery (c : Counts) (d : Delivery) : Counts :=
  { c with
    events := c.events + 1
    delivered := c.delivered + d.delivered
    listenerFailures := c.listenerFailures + d.failed }

def addCapture (c : Counts) (failures : Nat) : Counts :=
  { c with polled := c.polled + 1, captureFailures := c.captureFailures + failures }

def addFailedCapture (c : Counts) : Counts := { c with captureFailures := c.captureFailures + 1 }

end Counts

def Outcome.diagnostic? (file : FileId) (number : Nat) (event : ChangeEvent) :
    Outcome → Option Diagnostic
  | .accepted => none
  | .failed causes => some (.listenerFailed file number event (": ".intercalate causes))
  | .panicked message =>
    some (.listenerPanicked file number event (message.getD "<non-string panic payload>"))

namespace Cycle

variable {H L σ : Type} (env : Surroundings H L σ) (here : Focus σ (Watcher H L))

def emit (d : Diagnostic) (s : σ) : σ := here.update (·.emit d) s

def emitFailures (failures : List Failure) (s : σ) : σ :=
  failures.foldl (fun s f => emit here (.captureFailed f.file f.error.message) s) s

def callEach (file : FileId) (event : ChangeEvent) : List (Binding L) → Delivery → σ → Delivery × σ
  | [], d, s => (d, s)
  | b :: bs, d, s =>
    if (here.get s).bindings.holds file b.number then
      let (outcome, s) := env.call b.listener event s
      match outcome.diagnostic? file b.number event with
      | none => callEach file event bs { d with delivered := d.delivered + 1 } s
      | some report => callEach file event bs { d with failed := d.failed + 1 } (emit here report s)
    else callEach file event bs d s

def dispatch (file : FileId) (event : ChangeEvent) (s : σ) : Delivery × σ :=
  callEach env here file event ((here.get s).bindings.of file) ⟨0, 0⟩ s

/-- Delivers events one by one as long as the watch that they belong to is in place. -/
def deliver (id : FileId) (serial : Nat) : List ChangeEvent → Counts → σ → Counts × σ
  | [], c, s => (c, s)
  | e :: es, c, s =>
    if (here.get s).isCurrent id serial then
      let (d, s) := dispatch env here id e s
      deliver id serial es (c.addDelivery d) s
    else (c, s)

def changes (last : Option Snapshot) (snapshot : Snapshot) : List ChangeEvent :=
  match last with
  | some previous => Snapshot.diff previous snapshot
  -- The first snapshot is only the baseline.
  | none => []

def captureWatch (id : FileId) (watch : Watch H) (s : σ) : Visit σ :=
  let v := Capture.visit env.toQueries watch.recursive (env.depth s) watch.file watch.last s
  let elapsed : Duration := ⟨(env.clock v.after).nanos - (env.clock s).nanos⟩
  if (here.get v.after).slowAfter.nanos ≤ elapsed.nanos then
    { v with after := emit here (.slowCapture id elapsed) v.after }
  else v

def settle (id : FileId) (watch : Watch H) (v : Visit σ) (c : Counts) : Counts × σ :=
  match v.result with
  | .error e => (c.addFailedCapture, emit here (.captureFailed id e.message) v.after)
  | .ok snapshot =>
    let s := emitFailures here v.failures v.after
    let (c, s) := deliver env here id watch.serial (changes watch.last snapshot)
      (c.addCapture v.failures.length) s
    (c, here.update (·.store id watch.serial snapshot) s)

def poll (id : FileId) (c : Counts) (s : σ) : Counts × σ :=
  match (here.get s).watch? id with
  | none => (c, s)
  | some watch => settle env here id watch (captureWatch env here id watch s) c

def pollEach : List FileId → Counts → σ → Counts × σ
  | [], c, s => (c, s)
  | id :: ids, c, s =>
    if (here.get s).closed then (c, s)
    else
      let (c, s) := poll env here id c s
      pollEach ids c s

def runInOrder (ids : List FileId) (s : σ) : Counts × σ :=
  let (c, s) := pollEach env here ids {} s
  (c, here.update (fun w => { w with cycles := w.cycles + 1 }) s)

def run (s : σ) : Counts × σ := runInOrder env here (Keyed.keys (here.get s).watches) s

end Cycle

end PathWatch
