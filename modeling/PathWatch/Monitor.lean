import PathWatch.Cycle

/-!
A watcher with a life of its own: it is idle, running, stopped or closed. Each
start owes one round at once, and while it runs a further one is owed whenever
its delay has passed. Adding a path captures it right away, so what is there
already is not reported later. Closing is final.
-/
namespace PathWatch

inductive Phase
  | idle
  | running
  | stopped
  | closed
deriving DecidableEq, Repr

namespace Phase

def text : Phase → String
  | idle => "idle"
  | running => "running"
  | stopped => "stopped"
  | closed => "closed"

def title : Phase → String
  | idle => "Idle"
  | running => "Running"
  | stopped => "Stopped"
  | closed => "Closed"

end Phase

inductive MonitorError
  | closed
deriving DecidableEq, Repr

def MonitorError.message : MonitorError → String
  | .closed => "Monitor is closed"

/-- `listener` is bound to every added path; `due` counts the rounds that are owed. -/
structure Monitor (H L : Type) where
  watcher : Watcher H L
  listener : Option L
  recursive : Bool
  phase : Phase
  due : Nat

namespace Monitor

variable {H L σ : Type}

def new (listener : Option L) (config : Config) : Monitor H L :=
  let config := config.normalized
  { watcher := .ofConfig config
    listener
    recursive := config.recursive
    phase := .idle
    due := 0 }

def watcherFocus : Focus (Monitor H L) (Watcher H L) where
  get m := m.watcher
  set w m := { m with watcher := w }
  get_set _ _ := rfl
  set_get _ := rfl
  set_set _ _ _ := rfl

def start (m : Monitor H L) : Except MonitorError Unit × Monitor H L :=
  match m.phase with
  | .closed => (.error .closed, m)
  | .running => (.ok (), m)
  | .idle | .stopped => (.ok (), { m with phase := .running, due := m.due + 1 })

def stop (m : Monitor H L) : Monitor H L :=
  if m.phase = .running then { m with phase := .stopped } else m

def close (m : Monitor H L) : Monitor H L :=
  if m.phase = .closed then m else { m with phase := .closed, watcher := m.watcher.close }

/-- Closes the monitor for good: receivers that came after its close are cut off too. -/
def dissolve (m : Monitor H L) : Monitor H L :=
  let m := m.close
  { m with watcher := m.watcher.close }

def elapse (m : Monitor H L) : Monitor H L :=
  if m.phase = .running then { m with due := m.due + 1 } else m

def watched (m : Monitor H L) : List FileId := Keyed.keys m.watcher.watches

def remove (id : FileId) (m : Monitor H L) : Bool × Monitor H L :=
  let ((removed, _), watcher) := m.watcher.remove id
  (removed, { m with watcher })

def addListener (id : FileId) (listener : L) (m : Monitor H L) : Option Nat × Monitor H L :=
  if m.watcher.isWatching id then
    let (number, watcher) := m.watcher.bind id listener
    (some number, { m with watcher })
  else (none, m)

def removeListener (id : FileId) (number : Nat) (m : Monitor H L) : Bool × Monitor H L :=
  let (removed, watcher) := m.watcher.unbindListener id number
  (removed, { m with watcher })

def insert (id : FileId) (file : H) (recursive : Bool) (baseline : Option Snapshot)
    (m : Monitor H L) : Monitor H L :=
  let (_, watcher) := m.watcher.insert id file recursive baseline
  { m with watcher :=
      match m.listener with
      | some listener => (watcher.bind id listener).2
      | none => watcher }

def register (id : FileId) (file : H) (recursive : Bool) (baseline : Option Snapshot)
    (m : Monitor H L) : Except MonitorError Unit × Monitor H L :=
  if m.watcher.closed then (.error .closed, m)
  else if m.watcher.isWatching id then (.ok (), m)
  else (.ok (), m.insert id file recursive baseline)

def debugText (m : Monitor H L) : String :=
  s!"FileMonitor \x7b state: {m.phase.title}, watched: {m.watched.length}, " ++
    s!"delay: {Format.span m.watcher.delay}, recursive: {m.recursive} \x7d"

variable (env : Surroundings H L σ) (here : Focus σ (Monitor H L))

/-- Captures a path before it is watched. A path that cannot be captured gets
its baseline from its first poll. -/
def baseline (file : H) (recursive : Bool) (s : σ) : Option Snapshot × σ :=
  let v := Capture.visit env.toQueries recursive (env.depth s) file none s
  match v.result with
  | .ok snapshot => (some snapshot, Cycle.emitFailures (here.within watcherFocus) v.failures v.after)
  | .error e =>
    (none, Cycle.emit (here.within watcherFocus) (.captureFailed (env.id file) e.message) v.after)

/-- The capture may change the monitor, so whether the path may be added is
decided once more after it. -/
def add (file : H) (recursive : Bool) (s : σ) : Except MonitorError Unit × σ :=
  let m := here.get s
  if m.watcher.closed then (.error .closed, s)
  else if m.watcher.isWatching (env.id file) then (.ok (), s)
  else
    let (baseline, s) := baseline env here file recursive s
    here.step (register (env.id file) file recursive baseline) s

def runDue (s : σ) : σ :=
  let s := here.update (fun m => { m with due := m.due - 1 }) s
  (Cycle.run env (here.within watcherFocus) s).2

end Monitor

end PathWatch
