import PathWatch.Cli.Help
import PathWatch.Cli.Report
import PathWatch.Disk.Change

/-!
The program on a disk, in its home directory. Watching does not end by itself,
so there it only comes to the settings that it would watch with.
-/
namespace PathWatch.Cli

inductive Run
  | ended (e : Ending)
  | watching (options : WatchOptions) (settings : Config)

/-- Time stands still, so what the program makes on the disk is of one time. -/
def now : Time := ⟨0⟩

def here (path : String) : Disk.Path := .join ⟨.home, []⟩ (Text.utf8Bytes path)

def queries (labels : Disk.Labels) : Queries Disk.Path Disk.Volume where
  id p := ⟨p.text labels⟩
  name p := p.name labels
  isPresent p d := (d.isPresent p, d)
  modified p d := (d.modified p, d)
  isFolder p d := (d.isFolder p, d)
  size p d := (d.size p, d)
  children p d := (d.children p, d)

def captureDepth : Nat := 1000000

def openLog (path : String) (d : Disk.Volume) : Except Ending Unit × Disk.Volume :=
  match logPlace? path with
  | none => (.error (noLogName path), d)
  | some place =>
    match d.makeFolders (here place.directory) now with
    | (.error e, d) => (.error (logDirectoryEnding place e), d)
    | (.ok (), d) =>
      match d.openFile ((here place.directory).join (Text.utf8Bytes place.name)) now with
      | .error e => (.error (logFileEnding e), d)
      | .ok d => (.ok (), d)

def runSnapshot (o : SnapshotOptions) (d : Disk.Volume) : Ending :=
  let v := Capture.visit (queries d.labels) o.recursive captureDepth (here o.path) none d
  snapshotEnding o (Capture.strict v)

def runWatch (o : WatchOptions) (d : Disk.Volume) : Run :=
  match o.config with
  | none => .watching o (o.settings {})
  | some path =>
    match Config.load d (here path) path with
    | .error e => .ended (configEnding path e)
    | .ok c => .watching o (o.settings c)

def runCommand (c : Command) (d : Disk.Volume) : Run :=
  match c with
  | .watch o => runWatch o d
  | .snapshot o => .ended (runSnapshot o d)

def run (words : List String) (d : Disk.Volume) : Run × Disk.Volume :=
  match request words with
  | .error e => (.ended (.misused e), d)
  | .ok (.help c) => (.ended (.printed (page c)), d)
  | .ok .version => (.ended (.printed s!"{programName} {programVersion}\n"), d)
  | .ok (.run none c) => (runCommand c d, d)
  | .ok (.run (some log) c) =>
    match openLog log d with
    | (.error e, d) => (.ended e, d)
    | (.ok (), d) => (runCommand c d, d)

end PathWatch.Cli
