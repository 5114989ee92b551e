import PathWatch.Diff
import PathWatch.Scenario.Answer
import PathWatch.Scenario.Part

/-!
A scenario from its first step to its last. A step may lead to calls that take
further steps, so there is a bound on how deep calls may lie in each other.
-/
namespace PathWatch.Scenario

open Stage

/-- All questions to a handle. Whether it is a folder is asked first, to know
whether its size says anything. -/
def testify (q : Queries Handle Stage) (h : Handle) (s : Stage) : Testimony × Stage :=
  let (folder, s) := q.isFolder h s
  let (isPresent, s) := q.isPresent h s
  let (isFolder, s) := q.isFolder h s
  let (modified, s) := q.modified h s
  let (size, s) := match h.file, folder with
    | .onDisk _, .ok true => (none, s)
    | _, _ =>
      let (n, s) := q.size h s
      (some n, s)
  let (children, s) := q.children h s
  ({ id := q.id h, name := q.name h, isPresent, isFolder, modified, size,
     children := children.map (·.map q.id) }, s)

variable (env : Surroundings Handle Listener Stage)

def capture (file : File Step) (recursive : Bool) (previous : Option Snapshot) (s : Stage) :
    Visit Stage :=
  let (h, s) := s.newHandle file
  Capture.visit env.toQueries recursive (env.depth s) h previous s

def keepIn (slot : Option String) (r : Except FsError Snapshot) (s : Stage) : Stage :=
  match slot, r with
  | some slot, .ok snapshot => s.keep slot snapshot
  | _, _ => s

def watch (file : File Step) (recursive baseline : Bool) (s : Stage) : Reply × Stage :=
  let (h, s) := s.newHandle file
  let put (last : Option Snapshot) (s : Stage) : Reply × Stage :=
    replying .count (onWatcher.step (·.insert (env.id h) h recursive last) s)
  if baseline then
    let v := Capture.visit env.toQueries recursive (env.depth s) h none s
    match Capture.strict v with
    | .ok snapshot => put (some snapshot) v.after
    | .error e => (.failed e, v.after)
  else put none s

/-- Runs the rounds that the monitor owes, also those that come to be owed
meanwhile, unless one is under way. -/
def settleRounds : (rounds : Nat) → Stage → Stage
  | 0, s => s
  | rounds + 1, s =>
    if s.polling || s.monitor.due = 0 then s
    else
      let s := Monitor.runDue env onMonitor { s with polling := true }
      settleRounds rounds { s with polling := false }

def roundLimit : Nat := 1000000

def start (s : Stage) : Reply × Stage :=
  match onMonitor.step Monitor.start s with
  | (.error e, s) => (.refused e, s)
  | (.ok (), s) =>
    let s := settleRounds env roundLimit s
    (.phase s.monitor.phase, s)

def poll (s : Stage) : Reply × Stage :=
  if s.monitor.phase = .running then (.busy, s)
  else
    match onMonitor.step Monitor.start s with
    | (.error e, s) => (.refused e, s)
    | (.ok (), s) =>
      let s := settleRounds env roundLimit (onMonitor.update Monitor.stop s)
      (.polled s.monitor.watcher.cycles s.monitor.phase, s)

def subscribe (s : Stage) : Reply × Stage :=
  let source := if s.monitored then .monitor else .watcher
  let (place, s) := (onSource source).step (·.onDiagnostics Diagnostics.subscribe) s
  (.count s.receivers.length, { s with receivers := s.receivers ++ [(source, place)] })

def onReceiver {α : Type} (number : Nat) (f : Nat → Diagnostics → α × Diagnostics) (absent : α)
    (s : Stage) : α × Stage :=
  match s.receivers[number]? with
  | some (source, place) => (onSource source).step (·.onDiagnostics (f place)) s
  | none => (absent, s)

def act (step : Step) (s : Stage) : Reply × Stage :=
  match step with
  | .store step =>
    let (reply, store) := step.perform s.store
    (reply, { s with store })
  | .disk step =>
    let (reply, disk) := step.perform s.disk
    (reply, { s with disk })
  | .watcher step => onWatcher.step step.perform s
  | .monitor step => onMonitor.step step.perform s
  | .identify file => (.identity (env.id (.plain file)) (env.name (.plain file)), s)
  | .ask file =>
    let (h, s) := s.newHandle file
    replying .testimony (testify env.toQueries h s)
  | .capture file recursive slot quiet =>
    let v := capture env file recursive none s
    match Capture.strict v with
    | .ok snapshot =>
      (.captured snapshot.nodeCount (if quiet then none else some snapshot),
        keepIn slot (.ok snapshot) v.after)
    | .error e => (.failed e, v.after)
  | .captureAgainst file recursive previous slot =>
    let known := previous.bind (s.slots.lookup ·)
    let v := capture env file recursive known s
    match v.result with
    | .ok snapshot => (.capturedInPart snapshot v.failures, keepIn slot v.result v.after)
    | .error e => (.failed e, v.after)
  | .keep slot snapshot => (.done, s.keep slot snapshot)
  | .diff old new =>
    match s.slots.lookup new with
    | some snapshot => (.changes (Snapshot.diff (old.bind (s.slots.lookup ·)) snapshot), s)
    | none => (.unknownSlot new, s)
  | .bind id script =>
    let (listener, s) := s.newListener script
    replying (.listener ∘ some) (onWatcher.step (·.bind id listener) s)
  | .dispatch id event => replying .delivery (Cycle.dispatch env onWatcher id event s)
  | .watch file recursive baseline => watch env file recursive baseline s
  | .cycle => replying .counts (Cycle.run env onWatcher s)
  | .subscribe => subscribe s
  | .receive n => replying .received (onReceiver n Diagnostics.receive .disconnected s)
  | .drain n => replying .reports (onReceiver n Diagnostics.drain [] s)
  | .dropReceiver n =>
    replying (fun _ => .done) (onReceiver n (fun i d => ((), d.drop i)) () s)
  | .addFile file =>
    let (h, s) := s.newHandle file
    replying .ofMonitor (Monitor.add env onMonitor h s.monitor.recursive s)
  | .addPath file recursive =>
    let (h, s) := s.newHandle file
    replying .ofMonitor (Monitor.add env onMonitor h recursive s)
  | .removeFile file => replying .flag (onMonitor.step (Monitor.remove (env.id (.plain file))) s)
  | .addListener file script =>
    let (listener, s) := s.newListener script
    replying .listener (onMonitor.step (Monitor.addListener (env.id (.plain file)) listener) s)
  | .removeListener file n =>
    replying .flag (onMonitor.step (Monitor.removeListener (env.id (.plain file)) n) s)
  | .isWatching file => (.flag (s.monitor.watcher.isWatching (env.id (.plain file))), s)
  | .lastSnapshot file =>
    (.snapshot ((s.monitor.watcher.watch? (env.id (.plain file))).bind (·.last)), s)
  | .start => start env s
  | .poll => poll env s
  | .waitCycles _ =>
    let s := settleRounds env roundLimit s
    (.count s.monitor.watcher.cycles, s)
  | .dropMonitor => (.done, { onMonitor.update Monitor.dissolve s with monitored := false })

def perform : (depth : Nat) → Step → Stage → Reply × Stage
  | 0, _, s => (.exhausted, s)
  | depth + 1, step, s => act (surroundings (perform depth) s.disk.labels) step s

def callDepth : Nat := 1000000

structure Result where
  reply : Reply
  notes : List Note

def advance (step : Step) (s : Stage) : Result × Stage :=
  let env := surroundings (perform callDepth) s.disk.labels
  let (reply, s) := perform callDepth step (settleRounds env roundLimit s)
  (⟨reply, s.notes.reverse⟩, { s with notes := [] })

def run : List Step → Stage → List Result
  | [], _ => []
  | x :: xs, s =>
    let (result, s) := advance x s
    result :: run xs s

end PathWatch.Scenario
