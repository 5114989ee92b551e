import PathWatch.Scenario.Stage

/-!
How handles answer and listeners act on a stage. Both may take steps of their
own, so this is relative to a way of taking a step.
-/
namespace PathWatch.Scenario

def takeAll (take : Step → Stage → Reply × Stage) (agent : String) : List Step → Stage → Stage
  | [], s => s
  | x :: xs, s =>
    let (reply, s) := take x s
    takeAll take agent xs (s.note (.took agent x reply))

namespace Handle

def id (labels : Disk.Labels) (h : Handle) : FileId :=
  match h.file with
  | .stored p _ => p.id
  | .onDisk p => ⟨p.text labels⟩
  | .scripted id _ _ => id

def name (labels : Disk.Labels) (h : Handle) : String :=
  match h.file with
  | .stored p _ => Memory.Key.name p.text
  | .onDisk p => p.name labels
  | .scripted _ name _ => name

def plain (file : File Step) : Handle := ⟨file, 0⟩

def scriptedAnswer {α : Type} (answers : List (Except FsError α)) (i : Nat) : Except FsError α :=
  ((answers[i]?).or answers.getLast?).getD (.error (.unavailable "no answer"))

variable (take : Step → Stage → Reply × Stage)

def runHook (h : Hook Step) (q : Question) (key : Nat) (s : Stage) : Stage :=
  if h.on = q then
    let (n, s) := s.count [key]
    if n = h.nth then takeAll take "hook" h.steps s else s
  else s

/-- A question that `ofStore`, `ofDisk` and `ofScript` answer, the last one by
the number of the answer. -/
def answer {α : Type} (q : Question) (ofStore : Memory.Table → String → Except FsError α)
    (ofDisk : Disk.Volume → Disk.Path → Except FsError α)
    (ofScript : Answers (File Step) → Nat → Except FsError α) (h : Handle) (s : Stage) :
    Except FsError α × Stage :=
  match h.file with
  | .stored p none => (ofStore s.store p.text, s)
  | .stored p (some hook) =>
    let s := runHook take hook q h.key s
    (ofStore s.store p.text, s)
  | .onDisk p => (ofDisk s.disk p, s)
  | .scripted id _ answers =>
    let (n, s) := s.count [h.key, q.ctorIdx]
    (ofScript answers (n - 1), s.note (.line s!"query {q.text} {id.text}"))

def children (h : Handle) (s : Stage) : Except FsError (List Handle) × Stage :=
  match answer take .children
    (fun store key => (store.children key).map (·.map fun c => .stored (.ofText c) none))
    (fun disk p => (disk.children p).map (·.map .onDisk))
    (scriptedAnswer ·.children) h s with
  | (.ok files, s) =>
    let (hs, s) := s.newHandles files
    (.ok hs, s)
  | (.error e, s) => (.error e, s)

def queries (labels : Disk.Labels) : Queries Handle Stage where
  id := id labels
  name := name labels
  isPresent := answer take .isPresent Memory.Table.isPresent Disk.Volume.isPresent
    (scriptedAnswer ·.isPresent)
  modified := answer take .modified Memory.Table.modified Disk.Volume.modified
    (scriptedAnswer ·.modified)
  isFolder := answer take .isFolder Memory.Table.isFolder Disk.Volume.isFolder
    (scriptedAnswer ·.isFolder)
  size := answer take .size Memory.Table.size Disk.Volume.size (scriptedAnswer ·.size)
  children := children take

end Handle

namespace Listener

def call (take : Step → Stage → Reply × Stage) (l : Listener) (e : ChangeEvent) (s : Stage) :
    Outcome × Stage :=
  let s := s.note (.line s!"{l.script.tag}: {e.text}")
  let (n, s) := s.count [l.key]
  let acts := match l.script.limit with
    | some limit => decide (n ≤ limit)
    | none => true
  (l.script.ending, if acts then takeAll take l.script.tag l.script.steps s else s)

end Listener

def captureDepth : Nat := 1000000

/-- Time stands still during a scenario. -/
def surroundings (take : Step → Stage → Reply × Stage) (labels : Disk.Labels) :
    Surroundings Handle Listener Stage where
  toQueries := Handle.queries take labels
  call := Listener.call take
  clock _ := ⟨0⟩
  depth _ := captureDepth

end PathWatch.Scenario
