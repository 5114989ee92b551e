import PathWatch.Disk.Path
import PathWatch.Query

/-!
What a path and all paths below it would answer, found out beforehand. A path
that is asked again later gives the same answers.
-/
namespace PathWatch.Cli

structure Status where
  modified : Time
  isFolder : Bool
  size : Nat
deriving DecidableEq, Repr

inductive Survey
  | node (id : FileId) (name : String) (status : Except FsError Status)
      (children : Except FsError (List Survey))

namespace Survey

def id : Survey → FileId | node id _ _ _ => id
def name : Survey → String | node _ name _ _ => name
def status : Survey → Except FsError Status | node _ _ status _ => status
def children : Survey → Except FsError (List Survey) | node _ _ _ children => children

def isPresent (s : Survey) : Except FsError Bool :=
  match s.status with
  | .ok _ => .ok true
  | .error e => if e.isNotFound then .ok false else .error e

def queries {σ : Type} : Queries Survey σ where
  id := id
  name := name
  isPresent v s := (v.isPresent, s)
  modified v s := (v.status.map (·.modified), s)
  isFolder v s := (v.status.map (·.isFolder), s)
  size v s := (v.status.map (·.size), s)
  children v s := (v.children, s)

end Survey

end PathWatch.Cli
