import PathWatch.Disk.Path
import PathWatch.FsError
import PathWatch.Keyed
import PathWatch.Time

/-!
The files, folders and symbolic links of a disk, and how a path leads to one of
them. Links are followed wherever they stand, at most forty on one way. Only
what lies beside and below the home directory is known; nothing above is.
-/
namespace PathWatch.Disk

inductive Entry
  | file (bytes : ByteArray) (modified : Time)
  | folder (modified : Time) (entries : List (Bytes × Entry))
  | link (target : Bytes)

namespace Entry

def isFolder : Entry → Bool
  | folder _ _ => true
  | _ => false

def entries : Entry → List (Bytes × Entry)
  | folder _ es => es
  | _ => []

def at? : List Bytes → Entry → Option Entry
  | [], e => some e
  | n :: ns, e => (e.entries.lookup n).bind (at? ns)

def alter (f : Option Entry → Option Entry) : List Bytes → Entry → Entry
  | [], e => (f (some e)).getD e
  | [n], .folder t es =>
    match f (es.lookup n) with
    | some e => .folder t (Keyed.insert n e es)
    | none => .folder t (Keyed.erase n es)
  | n :: ns, .folder t es =>
    match es.lookup n with
    | some e => .folder t (Keyed.insert n (alter f ns e) es)
    | none => .folder t es
  | _, e => e

end Entry

/-- Where a path ends: at the top of the disk, or at names that lead down from
the directory that holds the home directory. -/
inductive Place
  | top
  | known (names : List Bytes)
deriving DecidableEq, Repr

/-- `labels` tells how paths are shown; `tree` is the directory that holds the
home directory. -/
structure Volume where
  labels : Labels
  tree : Entry

def linkLimit : Nat := 40
def nameLimit : Nat := 255
def pathLimit : Nat := 4095

namespace Volume

def ofHome (labels : Labels) (home : Entry) : Volume where
  labels
  tree := .folder default [(Text.utf8Bytes labels.homeName, home)]

def homePlace (v : Volume) : Place := .known [Text.utf8Bytes v.labels.homeName]

def entryAt? (v : Volume) : Place → Option Entry
  | .top => some (.folder default [])
  | .known names => v.tree.at? names

def parent : Place → Place
  | .top => .top
  | .known [] => .top
  | .known names => .known names.dropLast

def enter (place : Place) (name : Bytes) : Place :=
  match place with
  | .top => .top
  | .known names => .known (names ++ [name])

inductive Way
  | ends (place : Place)
  | link (place : Place) (target : Bytes) (rest : List Bytes)
  | fails (error : IoError)

/-- Follows names up to the first link. With `fresh` the last name need not
exist, and the way ends where it would be. -/
def follow (v : Volume) (fresh : Bool) (place : Place) : List Bytes → Way
  | [] => .ends place
  | n :: ns =>
    match v.entryAt? place with
    | none => .fails .noEntry
    | some e =>
      if !e.isFolder then .fails .notADirectory
      else if n = [] || n = dot then follow v fresh place ns
      else if n = dotDot then follow v fresh (parent place) ns
      else if nameLimit < n.length then .fails .nameTooLong
      else
        match e.entries.lookup n with
        | none => if fresh && ns.isEmpty then .ends (enter place n) else .fails .noEntry
        | some (.link target) => .link place target ns
        | some _ => follow v fresh (enter place n) ns

def resolve (v : Volume) (fresh : Bool) : (links : Nat) → Place → List Bytes → Except IoError Place
  | links, place, names =>
    match v.follow fresh place names with
    | .ends place => .ok place
    | .fails e => .error e
    | .link place target rest =>
      match links with
      | 0 => .error .linkLoop
      | links + 1 =>
        let start := if isAbsolute target then .top else place
        resolve v fresh links start (Text.splitOn slash target ++ rest)

def anchorPlace (v : Volume) : Anchor → Place
  | .top => .top
  | .home => v.homePlace
  | .work => .top

def admissible (v : Volume) (p : Path) : Except IoError Unit :=
  if p.rest.contains 0 then .error .nulByte
  else if pathLimit < (v.labels.text p.anchor).utf8ByteSize + p.rest.length then .error .nameTooLong
  else .ok ()

def place (v : Volume) (fresh : Bool) (p : Path) : Except IoError Place := do
  v.admissible p
  v.resolve fresh linkLimit (v.anchorPlace p.anchor) p.parts

def locate (v : Volume) (p : Path) : Except IoError Entry := do
  match v.entryAt? (← v.place false p) with
  | some e => return e
  | none => throw .noEntry

def readFile (v : Volume) (p : Path) : Except IoError ByteArray := do
  match ← v.locate p with
  | .file bytes _ => return bytes
  | _ => throw .isADirectory

def textOf (bytes : ByteArray) : Except IoError String :=
  match Text.utf8? bytes.toList with
  | some text => .ok text
  | none => .error .invalidUtf8

def readText (v : Volume) (p : Path) : Except IoError String := v.readFile p >>= textOf

def entry (v : Volume) (p : Path) : Except FsError Entry :=
  match v.locate p with
  | .ok e => .ok e
  | .error e => .error (.ofIo (p.text v.labels) e)

def isPresent (v : Volume) (p : Path) : Except FsError Bool :=
  match v.entry p with
  | .ok _ => .ok true
  | .error e => if e.isNotFound then .ok false else .error e

def modified (v : Volume) (p : Path) : Except FsError Time :=
  (v.entry p).map fun
    | .file _ t => t
    | .folder t _ => t
    | .link _ => default

def isFolder (v : Volume) (p : Path) : Except FsError Bool := (v.entry p).map Entry.isFolder

def size (v : Volume) (p : Path) : Except FsError Nat :=
  (v.entry p).map fun
    | .file bytes _ => bytes.size
    | _ => 0

/-- A folder is listed from the shortest name to the longest, and among names of
one length from the greatest to the least. -/
def listedBefore (a b : Bytes) : Bool :=
  decide (a.length < b.length) || (a.length == b.length && !decide (a < b))

def children (v : Volume) (p : Path) : Except FsError (List Path) := do
  match ← v.entry p with
  | .folder _ es => return ((es.map Prod.fst).mergeSort listedBefore).map p.join
  | _ => throw (.io .notADirectory)

end Volume

end PathWatch.Disk
