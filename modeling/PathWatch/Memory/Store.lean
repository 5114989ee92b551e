import PathWatch.FsError
import PathWatch.Keyed
import PathWatch.Memory.Path
import PathWatch.Time

/-!
Files and folders in memory, each at its path of names; a `Table` does the same
with the texts of the paths. A clock that every change moves on stamps them, so
no two changes carry one time. Queries about a path that is set failing fail,
whatever the path holds.
-/
namespace PathWatch.Memory

inductive Content
  | file (bytes : ByteArray)
  | folder

instance : DecidableEq Content
  | .file bytes, .file bytes' =>
    match bytes.decEq bytes' with
    | isTrue h => isTrue (congrArg Content.file h)
    | isFalse h => isFalse fun e => h (Content.file.inj e)
  | .folder, .folder => isTrue rfl
  | .file _, .folder => isFalse (by simp)
  | .folder, .file _ => isFalse (by simp)

structure Node where
  content : Content
  modified : Nat
deriving DecidableEq

structure Store where
  nodes : List (Path × Node)
  clock : Nat
  failing : List Path
deriving DecidableEq

namespace Store

def node? (s : Store) (p : Path) : Option Node := s.nodes.lookup p

def contains (s : Store) (p : Path) : Bool := (s.node? p).isSome

def stamp (p : Path) (content : Content) (s : Store) : Store :=
  { s with clock := s.clock + 1, nodes := Keyed.insert p ⟨content, s.clock + 1⟩ s.nodes }

def empty : Store := stamp [] .folder ⟨[], 0, []⟩

def restamp (p : Path) (s : Store) : Store :=
  match s.node? p with
  | some node => s.stamp p node.content
  | none => { s with clock := s.clock + 1 }

def restampParent (p : Path) (s : Store) : Store :=
  match p.parent? with
  | some parent => s.restamp parent
  | none => s

def ensureFolders : List Path → Store → Except FsError Unit × Store
  | [], s => (.ok (), s)
  | p :: ps, s =>
    match s.node? p with
    | some ⟨.folder, _⟩ => ensureFolders ps s
    | some ⟨.file _, _⟩ => (.error (.notAFolder p.idText), s)
    | none => ensureFolders ps (s.stamp p .folder)

/-- The time of a new path's parent moves on after its own. -/
def put (p : Path) (content : Content) (s : Store) : Except FsError Unit × Store :=
  match ensureFolders p.ancestors s with
  | (.error e, s) => (.error e, s)
  | (.ok (), s) =>
    let isNew := !s.contains p
    let s := s.stamp p content
    (.ok (), if isNew then s.restampParent p else s)

def write (p : Path) (bytes : ByteArray) (s : Store) : Except FsError Unit × Store :=
  match s.node? p with
  | some ⟨.folder, _⟩ => (.error (.unavailable s!"{p.idText} is a folder"), s)
  | _ => s.put p (.file bytes)

def createFolder (p : Path) (s : Store) : Except FsError Unit × Store :=
  match s.node? p with
  | some ⟨.folder, _⟩ => (.ok (), s)
  | some ⟨.file _, _⟩ => (.error (.notAFolder p.idText), s)
  | none => s.put p .folder

def remove (p : Path) (s : Store) : Bool × Store :=
  if p.isEmpty || !s.contains p then (false, s)
  else
    let kept := s.nodes.filter fun n => !p.isPrefixOf n.1
    (true, { s with nodes := kept }.restampParent p)

def touch (p : Path) (s : Store) : Bool × Store :=
  if s.contains p then (true, s.restamp p) else (false, s)

def setFailing (p : Path) (failing : Bool) (s : Store) : Store :=
  let others := s.failing.filter (· ≠ p)
  { s with failing := if failing then p :: others else others }

def read? (s : Store) (p : Path) : Option ByteArray :=
  match s.node? p with
  | some ⟨.file bytes, _⟩ => some bytes
  | _ => none

def look (s : Store) (p : Path) : Except FsError Node :=
  if s.failing.contains p then .error (.unavailable p.idText)
  else
    match s.node? p with
    | some node => .ok node
    | none => .error (.notFound p.idText)

def isPresent (s : Store) (p : Path) : Except FsError Bool :=
  match s.look p with
  | .ok _ => .ok true
  | .error e => if e.isNotFound then .ok false else .error e

def modified (s : Store) (p : Path) : Except FsError Time :=
  (s.look p).map fun node => .ofMillis node.modified

def isFolder (s : Store) (p : Path) : Except FsError Bool :=
  (s.look p).map fun node => decide (node.content = .folder)

def size (s : Store) (p : Path) : Except FsError Nat :=
  (s.look p).map fun node =>
    match node.content with
    | .file bytes => bytes.size
    | .folder => 0

def children (s : Store) (p : Path) : Except FsError (List Path) := do
  let node ← s.look p
  match node.content with
  | .file _ => .error (.notAFolder p.idText)
  | .folder => return (Keyed.keys s.nodes).filter fun c => c.parent? == some p

end Store

end PathWatch.Memory
