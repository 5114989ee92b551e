import PathWatch.Config.Load
import PathWatch.Disk.Change
import PathWatch.Memory.Table
import PathWatch.Scenario.Reply
import PathWatch.Scenario.Script

/-!
Steps that concern one part of the stage alone, each as a function on that part.
-/
namespace PathWatch.Scenario

def replying {α σ : Type} (f : α → Reply) (r : α × σ) : Reply × σ := (f r.1, r.2)

def Reply.ofUnit : Except FsError Unit → Reply
  | .ok () => .done
  | .error e => .failed e

def Reply.ofMonitor : Except MonitorError Unit → Reply
  | .ok () => .done
  | .error e => .refused e

def Reply.ofConfig : Except LoadError Config → Reply
  | .ok c => .settings c
  | .error (.io e) => .failed (.io e)
  | .error (.invalid path text cause) =>
    .badConfig path (LoadError.invalid path text cause).message

open Memory in
def StoreStep.perform : StoreStep → Table → Reply × Table
  | .write p bytes, t => replying .ofUnit (t.write p.text bytes)
  | .createFolder p, t => replying .ofUnit (t.createFolder p.text)
  | .remove p, t => replying .flag (t.remove p.text)
  | .touch p, t => replying .flag (t.touch p.text)
  | .contains p, t => (.flag (t.contains p.text), t)
  | .setFailing p failing, t => (.done, t.setFailing p.text failing)
  | .read p, t => (.bytes (t.read? p.text), t)

def changeDisk (d : Disk.Volume) : Except IoError Disk.Volume → Reply × Disk.Volume
  | .ok d => (.done, d)
  | .error e => (.failed (.io e), d)

/-- The folder that is asked for gets a time of its own, also if it was there. -/
def makeFolder (p : Disk.Path) (modified : Time) (d : Disk.Volume) : Reply × Disk.Volume :=
  match d.makeFolders p usualTime with
  | (.error e, d) => (.failed (.io e), d)
  | (.ok (), d) => changeDisk d (d.setModified p modified)

def DiskStep.perform : DiskStep → Disk.Volume → Reply × Disk.Volume
  | .putFile p bytes t, d => changeDisk d (d.writeFile p bytes t)
  | .putFolder p t, d => makeFolder p t d
  | .putLink p target, d => changeDisk d (d.writeLink p target)
  | .delete p, d => changeDisk d (d.delete p)
  | .loadConfig p, d => (.ofConfig (Config.load d p (p.text d.labels)), d)
  | .command words, d =>
    let (run, d) := Cli.run words d
    (.program run d.paths, d)

variable {H L : Type}

def WatcherStep.perform : WatcherStep → Watcher H L → Reply × Watcher H L
  | .unbind id, w => replying .count (w.unbind id)
  | .unbindListener id n, w => replying .flag (w.unbindListener id n)
  | .isBound id, w => (.flag (w.bindings.isBound id), w)
  | .listenerCount id, w => (.count (w.bindings.count id), w)
  | .clearBindings, w => (.done, w.clearBindings)
  | .emit d, w => (.shown d, w.emit d)
  | .closeDiagnostics, w => (.done, { w with diagnostics := w.diagnostics.close })
  | .subscriberCount, w => (.count w.diagnostics.subscriberCount, w)
  | .unwatch id, w => replying (fun r => .unwatched r.1 r.2) (w.remove id)
  | .entry id, w => (.entry ((w.watch? id).map fun x => ⟨x.serial, x.recursive, x.last⟩), w)
  | .markClosed, w => (.done, { w with closed := true })
  | .cycles, w => (.count w.cycles, w)
  | .delay d, w =>
    let w := match d with
      | some d => w.setDelay d
      | none => w
    (.span w.delay, w)
  | .checksPerRun n, w =>
    let w := match n with
      | some n => w.setChecksPerRun n
      | none => w
    (.count w.checksPerRun, w)

def Overview.of (m : Monitor H L) : Overview where
  phase := m.phase
  watched := m.watched
  delay := m.watcher.delay
  recursive := m.recursive
  checksPerRun := m.watcher.checksPerRun
  cycles := m.watcher.cycles
  text := m.debugText

def MonitorStep.perform : MonitorStep → Monitor H L → Reply × Monitor H L
  | .remove id, m => replying .flag (m.remove id)
  | .requestStart, m => replying .ofMonitor m.start
  | .stop, m => (.phase m.stop.phase, m.stop)
  | .close, m => (.phase m.close.phase, m.close)
  | .setDelay d, m =>
    let m := Monitor.watcherFocus.update (·.setDelay d) m
    (.span m.watcher.delay, m)
  | .setRecursive recursive, m => (.flag recursive, { m with recursive })
  | .setChecksPerRun n, m =>
    let m := Monitor.watcherFocus.update (·.setChecksPerRun n) m
    (.count m.watcher.checksPerRun, m)
  | .info, m => (.overview (.of m), m)

end PathWatch.Scenario
