import PathWatch.Cli.Help
import PathWatch.Cli.Session
import Std.Time.DateTime.Timestamp

/-!
The program: it reads its words, surveys the real disk, and leaves all
decisions to the library.
-/
namespace PathWatch.Main

open Cli

def errorNumber : IO.Error → Option UInt32
  | .alreadyExists _ n _ | .otherError n _ | .resourceBusy n _ | .resourceVanished n _
  | .unsupportedOperation n _ | .hardwareFault n _ | .unsatisfiedConstraints n _
  | .illegalOperation n _ | .protocolError n _ | .timeExpired n _ | .interrupted _ n _
  | .noFileOrDirectory _ n _ | .invalidArgument _ n _ | .permissionDenied _ n _
  | .resourceExhausted _ n _ | .inappropriateType _ n _ | .noSuchThing _ n _ => some n
  | .unexpectedEof | .userError _ => none

/-- Some calls give the number's negative. -/
def ioError (e : IO.Error) : IoError :=
  match errorNumber e with
  | some n => .os n.toInt32.toInt.natAbs
  | none => .described .other (toString e)

def caught {α : Type} (action : IO α) : IO (Except IoError α) := do
  try return .ok (← action)
  catch e => return .error (ioError e)

def entry (path : String) : IO.FS.DirEntry := { root := "", fileName := path }

def status (path : String) : IO Status := do
  let m ← (entry path).path.metadata
  return {
    modified := .ofParts m.modified.sec m.modified.nsec.toNat
    isFolder := m.type == .dir
    size := m.byteSize.toNat }

/-- What lies below is surveyed only as far as a capture would ask for it. -/
partial def survey (recursive : Bool) (id : Disk.Path) : IO Survey := do
  let labels : Disk.Labels := ⟨"", "", "", ""⟩
  let path := id.text labels
  let name := id.name labels
  let found ← caught (status path)
  let failure (e : IoError) : FsError := .ofIo path e
  let below : Except FsError (List Survey) ← match found with
    | .ok { isFolder := true, .. } =>
      if recursive then
        match ← caught (entry path).path.readDir with
        | .ok entries =>
          let children ← entries.toList.mapM fun e =>
            survey recursive (id.join (Text.utf8Bytes e.fileName))
          pure (.ok children)
        | .error e => pure (.error (failure e))
      else pure (.ok [])
    | _ => pure (.ok [])
  return .node ⟨path⟩ name (found.mapError failure) below

def surveyAt (recursive : Bool) (path : String) : IO Survey := do
  let directory := Text.utf8Bytes (toString (← IO.currentDir))
  survey recursive (.join ⟨.top, directory⟩ (Text.utf8Bytes path))

def finish (e : Ending) : IO UInt32 := do
  (← IO.getStdout).putStr e.out
  (← IO.getStderr).putStr e.err
  return e.exit.toUInt32

def openLog (path : String) : IO (Except Ending Unit) := do
  match logPlace? path with
  | none => return .error (noLogName path)
  | some place =>
    match ← caught (IO.FS.createDirAll place.directory) with
    | .error e => return .error (logDirectoryEnding place e)
    | .ok () =>
      match ← caught (IO.FS.Handle.mk s!"{place.directory}/{place.name}" .append) with
      | .error e => return .error (logFileEnding e)
      | .ok _ => return .ok ()

def runSnapshot (o : SnapshotOptions) : IO UInt32 := do
  let found ← surveyAt o.recursive o.path
  let v := Capture.visit Survey.queries o.recursive Session.captureDepth found none ()
  finish (snapshotEnding o (Capture.strict v))

def now : IO Time := do
  let t ← Std.Time.Timestamp.now
  return ⟨t.toNanosecondsSinceUnixEpoch.val⟩

partial def rounds (o : WatchOptions) (recursive : Bool) (s : Session) : IO UInt32 := do
  let surveys ← o.paths.mapM (surveyAt recursive)
  let (lines, s) := s.round (← now) surveys
  let out ← IO.getStdout
  for line in lines do out.putStrLn line
  out.flush
  IO.sleep s.monitor.watcher.delayMs.toUInt32
  rounds o recursive s

def runWatch (o : WatchOptions) : IO UInt32 := do
  let loaded ← match o.config with
    | none => pure (.ok {})
    | some path =>
      let bytes ← caught (IO.FS.readBinFile path)
      pure ((Config.ofFile path (bytes.bind Disk.Volume.textOf)).mapError (configEnding path))
  match loaded with
  | .error e => finish e
  | .ok file =>
    let settings := o.settings file
    let surveys ← o.paths.mapM (surveyAt settings.recursive)
    let s := Session.start settings o.json (← now) surveys
    (← IO.getStderr).putStr (Session.startText o.paths.length settings.delay)
    rounds o settings.recursive s

def runCommand : Command → IO UInt32
  | .watch o => runWatch o
  | .snapshot o => runSnapshot o

end PathWatch.Main

open PathWatch PathWatch.Cli in
def main (words : List String) : IO UInt32 := do
  match request words with
  | .error e => Main.finish (.misused e)
  | .ok (.help c) => Main.finish (.printed (page c))
  | .ok .version => Main.finish (.printed s!"{programName} {programVersion}\n")
  | .ok (.run none c) => Main.runCommand c
  | .ok (.run (some log) c) =>
    match ← Main.openLog log with
    | .error e => Main.finish e
    | .ok () => Main.runCommand c
