import PathWatch.Cli.Run
import PathWatch.Config
import PathWatch.Cycle
import PathWatch.Monitor
import PathWatch.Scenario.Script

/-!
What the steps of a scenario give, and what is noted down while they are taken.
-/
namespace PathWatch.Scenario

structure Testimony where
  id : FileId
  name : String
  isPresent : Except FsError Bool
  isFolder : Except FsError Bool
  modified : Except FsError Time
  size : Option (Except FsError Nat)
  children : Except FsError (List FileId)

structure WatchView where
  serial : Nat
  recursive : Bool
  last : Option Snapshot

structure Overview where
  phase : Phase
  watched : List FileId
  delay : Duration
  recursive : Bool
  checksPerRun : Nat
  cycles : Nat
  text : String

inductive Reply
  | done
  | failed (error : FsError)
  | refused (error : MonitorError)
  | busy
  | badConfig (path message : String)
  | flag (value : Bool)
  | count (n : Nat)
  | span (duration : Duration)
  | bytes (content : Option ByteArray)
  | identity (id : FileId) (name : String)
  | testimony (t : Testimony)
  | captured (nodes : Nat) (snapshot : Option Snapshot)
  | capturedInPart (snapshot : Snapshot) (failures : List Failure)
  | snapshot (s : Option Snapshot)
  | changes (events : List ChangeEvent)
  | listener (number : Option Nat)
  | delivery (d : Delivery)
  | counts (c : Counts)
  | received (r : Received)
  | reports (ds : List Diagnostic)
  | shown (d : Diagnostic)
  | unwatched (wasWatched : Bool) (listeners : Nat)
  | entry (watch : Option WatchView)
  | phase (p : Phase)
  | polled (cycles : Nat) (p : Phase)
  | overview (o : Overview)
  | settings (c : Config)
  | program (run : Cli.Run) (files : List String)
  | unknownSlot (slot : String)
  | exhausted

inductive Note
  | line (text : String)
  | took (agent : String) (step : Step) (reply : Reply)

end PathWatch.Scenario
