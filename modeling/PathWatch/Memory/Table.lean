import PathWatch.Memory.Key
import PathWatch.Memory.Store

/-!
Files and folders in memory as they are kept: one table under the texts of their
paths, in the order of these texts. Nothing but the texts tells what lies where:
the paths below a path are found by a scan of the table from where they begin.
-/
namespace PathWatch.Memory

structure Table where
  nodes : List (String × Node)
  clock : Nat
  failing : List String

namespace Table

def node? (t : Table) (key : String) : Option Node := t.nodes.lookup key

def tick (t : Table) : Table := { t with clock := t.clock + 1 }

def stamp (key : String) (content : Content) (t : Table) : Table :=
  let t := t.tick
  { t with nodes := Keyed.insert key ⟨content, t.clock⟩ t.nodes }

def empty : Table := stamp "/" .folder ⟨[], 0, []⟩

def restamp (key : String) (t : Table) : Table :=
  match t.node? key with
  | some node => t.stamp key node.content
  | none => t.tick

def restampParent (key : String) (t : Table) : Table :=
  match Key.parent? key with
  | some parent => t.restamp parent
  | none => t

/-- Makes folders of the paths that are missing, and stops at a file. -/
def ensureFolders : List String → Table → Except FsError Unit × Table
  | [], t => (.ok (), t)
  | key :: keys, t =>
    match t.node? key with
    | some ⟨.folder, _⟩ => ensureFolders keys t
    | some ⟨.file _, _⟩ => (.error (.notAFolder (scheme ++ key)), t)
    | none => ensureFolders keys (t.stamp key .folder)

def ensureParents (key : String) (t : Table) : Except FsError Unit × Table :=
  ensureFolders (Key.ancestors key).reverse t

def put (key : String) (content : Content) (t : Table) : Except FsError Unit × Table :=
  match t.ensureParents key with
  | (.error e, t) => (.error e, t)
  | (.ok (), t) =>
    let isNew := (t.node? key).isNone
    let t := t.stamp key content
    (.ok (), if isNew then t.restampParent key else t)

def write (path : String) (bytes : ByteArray) (t : Table) : Except FsError Unit × Table :=
  let key := Path.normalForm path
  match t.node? key with
  | some ⟨.folder, _⟩ => (.error (.unavailable s!"{scheme}{key} is a folder"), t)
  | _ => t.put key (.file bytes)

def createFolder (path : String) (t : Table) : Except FsError Unit × Table :=
  let key := Path.normalForm path
  match t.node? key with
  | some ⟨.folder, _⟩ => (.ok (), t)
  | some ⟨.file _, _⟩ => (.error (.notAFolder (scheme ++ key)), t)
  | none =>
    match t.ensureParents key with
    | (.error e, t) => (.error e, t)
    | (.ok (), t) => (.ok (), (t.stamp key .folder).restampParent key)

/-- The nodes from the first one on that is not ordered before the text, as far as
their keys begin with it. -/
def scan (front : String) (nodes : List (String × Node)) : List (String × Node) :=
  (nodes.dropWhile fun e => e.1 < front).takeWhile fun e => front.toList.isPrefixOf e.1.toList

def eraseAll (keys : List String) (nodes : List (String × Node)) : List (String × Node) :=
  keys.foldl (fun nodes key => Keyed.erase key nodes) nodes

def remove (path : String) (t : Table) : Bool × Table :=
  let key := Path.normalForm path
  if key = "/" then (false, t)
  else if (t.node? key).isNone then (false, t)
  else
    let nodes := Keyed.erase key t.nodes
    let doomed := Keyed.keys (scan (key ++ "/") nodes)
    (true, { t with nodes := eraseAll doomed nodes }.restampParent key)

def touch (path : String) (t : Table) : Bool × Table :=
  let key := Path.normalForm path
  if (t.node? key).isNone then (false, t) else (true, t.restamp key)

def setFailing (path : String) (failing : Bool) (t : Table) : Table :=
  let key := Path.normalForm path
  let others := t.failing.filter (· ≠ key)
  { t with failing := if failing then key :: others else others }

def contains (t : Table) (path : String) : Bool := (t.node? (Path.normalForm path)).isSome

def read? (t : Table) (path : String) : Option ByteArray :=
  match t.node? (Path.normalForm path) with
  | some ⟨.file bytes, _⟩ => some bytes
  | _ => none

/-! What a file or folder answers; its path is in normal form. -/

def look (t : Table) (key : String) : Except FsError Node :=
  if t.failing.contains key then .error (.unavailable (scheme ++ key))
  else
    match t.node? key with
    | some node => .ok node
    | none => .error (.notFound (scheme ++ key))

def isPresent (t : Table) (key : String) : Except FsError Bool :=
  match t.look key with
  | .ok _ => .ok true
  | .error e => if e.isNotFound then .ok false else .error e

def modified (t : Table) (key : String) : Except FsError Time :=
  (t.look key).map fun node => .ofMillis node.modified

def isFolder (t : Table) (key : String) : Except FsError Bool :=
  (t.look key).map fun node => decide (node.content = .folder)

def size (t : Table) (key : String) : Except FsError Nat :=
  (t.look key).map fun node =>
    match node.content with
    | .file bytes => bytes.size
    | .folder => 0

def children (t : Table) (key : String) : Except FsError (List String) := do
  let node ← t.look key
  match node.content with
  | .file _ => .error (.notAFolder (scheme ++ key))
  | .folder =>
    let front := Key.front key
    return (Keyed.keys (scan front t.nodes)).filter fun k =>
      decide (front.length < k.length) && !(k.toList.drop front.length).contains '/'

end Table

end PathWatch.Memory
