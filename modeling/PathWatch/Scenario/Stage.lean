import PathWatch.Disk.Change
import PathWatch.Memory.Table
import PathWatch.Scenario.Reply
import PathWatch.Scenario.Script
import Std.Data.HashMap

/-!
The state of a scenario: two places for files, a watcher and a monitor, named
snapshots, and a log. Handles and listeners are known by keys, under which their
calls are counted.
-/
namespace PathWatch.Scenario

structure Handle where
  file : File Step
  key : Nat

structure Listener where
  script : ListenerScript Step
  key : Nat

inductive Source
  | watcher
  | monitor
deriving DecidableEq, Repr

/-- `monitored` says that there is a monitor, `polling` that one of its rounds is
under way. A receiver is known by its place among the receivers of its source.
The latest note stands first. -/
structure Stage where
  store : Memory.Table
  disk : Disk.Volume
  slots : List (String × Snapshot)
  watcher : Watcher Handle Listener
  monitor : Monitor Handle Listener
  monitored : Bool
  polling : Bool
  receivers : List (Source × Nat)
  notes : List Note
  calls : Std.HashMap (List Nat) Nat
  nextKey : Nat

namespace Stage

def note (n : Note) (s : Stage) : Stage := { s with notes := n :: s.notes }

def count (key : List Nat) (s : Stage) : Nat × Stage :=
  let n := s.calls.getD key 0 + 1
  (n, { s with calls := s.calls.insert key n })

def newKey (s : Stage) : Nat × Stage := (s.nextKey, { s with nextKey := s.nextKey + 1 })

def newHandle (file : File Step) (s : Stage) : Handle × Stage :=
  let (key, s) := s.newKey
  (⟨file, key⟩, s)

def newHandles : List (File Step) → Stage → List Handle × Stage
  | [], s => ([], s)
  | file :: files, s =>
    let (h, s) := s.newHandle file
    let (hs, s) := newHandles files s
    (h :: hs, s)

def newListener (script : ListenerScript Step) (s : Stage) : Listener × Stage :=
  let (key, s) := s.newKey
  (⟨script, key⟩, s)

def keep (slot : String) (snapshot : Snapshot) (s : Stage) : Stage :=
  { s with slots := Keyed.insert slot snapshot s.slots }

def onWatcher : Focus Stage (Watcher Handle Listener) where
  get s := s.watcher
  set w s := { s with watcher := w }
  get_set _ _ := rfl
  set_get _ := rfl
  set_set _ _ _ := rfl

def onMonitor : Focus Stage (Monitor Handle Listener) where
  get s := s.monitor
  set m s := { s with monitor := m }
  get_set _ _ := rfl
  set_get _ := rfl
  set_set _ _ _ := rfl

def onSource : Source → Focus Stage (Watcher Handle Listener)
  | .watcher => onWatcher
  | .monitor => onMonitor.within Monitor.watcherFocus

end Stage

inductive MonitorSetting
  | absent
  | present (listener : Option (ListenerScript Step)) (config : Config)

def Stage.initial (config : Config) (setting : MonitorSetting) (disk : Disk.Volume) : Stage where
  store := .empty
  disk
  slots := []
  watcher := .ofConfig config
  monitor :=
    match setting with
    | .absent => .new none {}
    | .present listener config => .new (listener.map (⟨·, 0⟩)) config
  monitored :=
    match setting with
    | .absent => false
    | .present .. => true
  polling := false
  receivers := []
  notes := []
  calls := ∅
  nextKey := 1

end PathWatch.Scenario
