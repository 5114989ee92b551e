import PathWatch.Config
import PathWatch.Cycle
import PathWatch.Disk.Path
import PathWatch.Memory.Path

/-!
The script of a scenario: which files there are and how they answer, what
listeners do when they are called, and what happens one step after the other.
Files and listeners may take steps of their own in the middle of a call.
-/
namespace PathWatch.Scenario

inductive Question
  | isPresent
  | modified
  | isFolder
  | size
  | children
deriving DecidableEq, Repr

def Question.text : Question → String
  | isPresent => "exists"
  | modified => "last_modified"
  | isFolder => "is_folder"
  | size => "content_size"
  | children => "children"

/-- The answers to each question in the order in which they are given; the last
one is given ever after. -/
structure Answers (F : Type) where
  isPresent : List (Except FsError Bool)
  modified : List (Except FsError Time)
  isFolder : List (Except FsError Bool)
  size : List (Except FsError Nat)
  children : List (Except FsError (List F))

structure Hook (S : Type) where
  on : Question
  nth : Nat
  steps : List S

inductive File (S : Type)
  | stored (path : Memory.Path) (hook : Option (Hook S))
  | onDisk (path : Disk.Path)
  | scripted (id : FileId) (name : String) (answers : Answers (File S))

/-- A listener that takes its steps at its first `limit` calls, or at every one,
and ends every call in the same way. -/
structure ListenerScript (S : Type) where
  tag : String
  steps : List S
  limit : Option Nat
  ending : Outcome

inductive StoreStep
  | write (path : Memory.Path) (bytes : ByteArray)
  | createFolder (path : Memory.Path)
  | remove (path : Memory.Path)
  | touch (path : Memory.Path)
  | contains (path : Memory.Path)
  | setFailing (path : Memory.Path) (failing : Bool)
  | read (path : Memory.Path)

def usualTime : Time := .ofParts 1000000000 0

inductive DiskStep
  | putFile (path : Disk.Path) (bytes : ByteArray) (modified : Time)
  | putFolder (path : Disk.Path) (modified : Time)
  | putLink (path : Disk.Path) (target : Disk.Bytes)
  | delete (path : Disk.Path)
  | loadConfig (path : Disk.Path)
  | command (words : List String)

inductive WatcherStep
  | unbind (id : FileId)
  | unbindListener (id : FileId) (number : Nat)
  | isBound (id : FileId)
  | listenerCount (id : FileId)
  | clearBindings
  | emit (diagnostic : Diagnostic)
  | closeDiagnostics
  | subscriberCount
  | unwatch (id : FileId)
  | entry (id : FileId)
  | markClosed
  | cycles
  | delay (delay : Option Duration)
  | checksPerRun (checks : Option Nat)

inductive MonitorStep
  | remove (id : FileId)
  | requestStart
  | stop
  | close
  | setDelay (delay : Duration)
  | setRecursive (recursive : Bool)
  | setChecksPerRun (checks : Nat)
  | info

inductive Step
  | store (step : StoreStep)
  | disk (step : DiskStep)
  | watcher (step : WatcherStep)
  | monitor (step : MonitorStep)
  | identify (file : File Step)
  | ask (file : File Step)
  | capture (file : File Step) (recursive : Bool) (slot : Option String) (quiet : Bool)
  | captureAgainst (file : File Step) (recursive : Bool) (previous slot : Option String)
  | keep (slot : String) (snapshot : Snapshot)
  | diff (old : Option String) (new : String)
  | bind (id : FileId) (listener : ListenerScript Step)
  | dispatch (id : FileId) (event : ChangeEvent)
  | watch (file : File Step) (recursive baseline : Bool)
  | cycle
  | subscribe
  | receive (receiver : Nat)
  | drain (receiver : Nat)
  | dropReceiver (receiver : Nat)
  | addFile (file : File Step)
  | addPath (file : File Step) (recursive : Bool)
  | removeFile (file : File Step)
  | addListener (file : File Step) (listener : ListenerScript Step)
  | removeListener (file : File Step) (number : Nat)
  | isWatching (file : File Step)
  | lastSnapshot (file : File Step)
  | start
  | poll
  | waitCycles (cycles : Nat)
  | dropMonitor

def StoreStep.name : StoreStep → String
  | write .. => "write"
  | createFolder .. => "create_dir"
  | remove .. => "remove"
  | touch .. => "touch"
  | contains .. => "exists"
  | setFailing .. => "set_failing"
  | read .. => "read"

def DiskStep.name : DiskStep → String
  | putFile .. => "put_file"
  | putFolder .. => "put_dir"
  | putLink .. => "put_link"
  | delete .. => "delete"
  | loadConfig .. => "load_config"
  | command .. => "cli"

def WatcherStep.name : WatcherStep → String
  | unbind .. => "unbind"
  | unbindListener .. => "unbind_listener"
  | isBound .. => "is_bound"
  | listenerCount .. => "listener_count"
  | clearBindings => "clear"
  | emit .. => "emit"
  | closeDiagnostics => "close_diagnostics"
  | subscriberCount => "subscriber_count"
  | unwatch .. => "unwatch"
  | entry .. => "entry"
  | markClosed => "mark_closed"
  | cycles => "engine_cycles"
  | delay .. => "engine_delay"
  | checksPerRun .. => "engine_checks"

def MonitorStep.name : MonitorStep → String
  | remove .. => "remove_id"
  | requestStart => "request_start"
  | stop => "stop"
  | close => "close"
  | setDelay .. => "set_delay"
  | setRecursive .. => "set_recursive"
  | setChecksPerRun .. => "set_checks_per_run"
  | info => "info"

def Step.name : Step → String
  | store step => step.name
  | disk step => step.name
  | watcher step => step.name
  | monitor step => step.name
  | identify .. => "ident"
  | ask .. => "stat"
  | capture .. => "capture"
  | captureAgainst .. => "capture_against"
  | keep .. => "put"
  | diff .. => "diff"
  | bind .. => "bind"
  | dispatch .. => "dispatch"
  | watch .. => "watch"
  | cycle => "cycle"
  | subscribe => "subscribe"
  | receive .. => "recv"
  | drain .. => "drain"
  | dropReceiver .. => "drop_receiver"
  | addFile .. => "add_file"
  | addPath .. => "add_path"
  | removeFile .. => "remove_file"
  | addListener .. => "add_listener"
  | removeListener .. => "remove_listener"
  | isWatching .. => "is_watching"
  | lastSnapshot .. => "last_snapshot"
  | start => "start"
  | poll => "poll"
  | waitCycles .. => "wait_cycles"
  | dropMonitor => "drop_monitor"

end PathWatch.Scenario
