import PathWatch.Cli.Report
import PathWatch.Cli.Survey
import PathWatch.Monitor

/-!
Watching from the command line: a monitor over paths that are surveyed anew
before each round, and a listener that writes a line for each event.
-/
namespace PathWatch.Cli

inductive Spot
  | watched (id : FileId) (name : String)
  | below (survey : Survey)

structure Session where
  surveys : List (FileId × Survey)
  monitor : Monitor Spot Unit
  json : Bool
  now : Time
  lines : List String

namespace Spot

def survey (spot : Spot) (s : Session) : Survey :=
  match spot with
  | .watched id name =>
    (s.surveys.lookup id).getD
      (.node id name (.error (.notFound id.text)) (.error (.notFound id.text)))
  | .below v => v

def queries : Queries Spot Session where
  id
    | .watched id _ => id
    | .below v => v.id
  name
    | .watched _ name => name
    | .below v => v.name
  isPresent spot s := ((spot.survey s).isPresent, s)
  modified spot s := ((spot.survey s).status.map (·.modified), s)
  isFolder spot s := ((spot.survey s).status.map (·.isFolder), s)
  size spot s := ((spot.survey s).status.map (·.size), s)
  children spot s := ((spot.survey s).children.map (·.map .below), s)

end Spot

def kindText (kind : ChangeKind) : String :=
  match kind with
  | .created => green kind.text
  | .deleted => red kind.text
  | .changed => yellow kind.text

def eventLine (json : Bool) (now : Time) (e : ChangeEvent) : String :=
  let moment := Calendar.Moment.ofTime now
  if json then
    "\x7b\"file\":" ++ Json.quoted e.file.text ++ ",\"kind\":" ++ Json.quoted e.kind.text ++
      ",\"time\":" ++ Json.quoted (Calendar.gregorian.rfc3339 .auto false moment) ++ "\x7d"
  else s!"{dimmed moment.clock} {kindText e.kind} {e.file.text}"

namespace Session

def onMonitor : Focus Session (Monitor Spot Unit) where
  get s := s.monitor
  set m s := { s with monitor := m }
  get_set _ _ := rfl
  set_get _ := rfl
  set_set _ _ _ := rfl

def captureDepth : Nat := 1000000

def surroundings : Surroundings Spot Unit Session where
  toQueries := Spot.queries
  call _ e s := (.accepted, { s with lines := eventLine s.json s.now e :: s.lines })
  clock _ := ⟨0⟩
  depth _ := captureDepth

def start (settings : Config) (json : Bool) (now : Time) (surveys : List Survey) : Session :=
  let s : Session := {
    surveys := surveys.map fun v => (v.id, v)
    monitor := .new (some ()) settings
    json, now
    lines := [] }
  let s := surveys.foldl (fun s v =>
    (Monitor.add surroundings onMonitor (.watched v.id v.name) settings.recursive s).2) s
  onMonitor.update (fun m => m.start.2) s

def round (now : Time) (surveys : List Survey) (s : Session) : List String × Session :=
  let s := { s with now, surveys := surveys.map fun v => (v.id, v) }
  let s := Monitor.runDue surroundings onMonitor s
  (s.lines.reverse, onMonitor.update Monitor.elapse { s with lines := [] })

def startText (paths : Nat) (delay : Duration) : String :=
  bold "Watching" ++ s!" {paths} path(s) every {Format.span delay}, press Ctrl-C to stop\n"

end Session

end PathWatch.Cli
