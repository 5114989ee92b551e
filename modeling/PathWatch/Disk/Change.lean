import PathWatch.Disk.Tree

/-!
Changes of a disk: files, folders and links come and go. What is written to a
link goes where it leads; making and deleting concern the link itself.
-/
namespace PathWatch.Disk.Volume

def putAt (v : Volume) (place : Place) (e : Option Entry) : Volume :=
  match place with
  | .known names => { v with tree := v.tree.alter (fun _ => e) names }
  | _ => v

def ownPlace (v : Volume) (p : Path) : Except IoError (Place × Option Entry) := do
  v.admissible p
  match p.steps.getLast? with
  | none =>
    let place := v.anchorPlace p.anchor
    return (place, v.entryAt? place)
  | some n =>
    let folder ← v.resolve false linkLimit (v.anchorPlace p.anchor) p.steps.dropLast
    match v.entryAt? folder with
    | some (.folder _ es) =>
      if n = dotDot then throw .alreadyExists
      else if nameLimit < n.length then throw .nameTooLong
      else return (enter folder n, es.lookup n)
    | some _ => throw .notADirectory
    | none => throw .noEntry

def writeFile (p : Path) (bytes : ByteArray) (modified : Time) (v : Volume) : Except IoError Volume := do
  let place ← v.place true p
  match v.entryAt? place with
  | some (.folder _ _) => throw .isADirectory
  | _ => return v.putAt place (some (.file bytes modified))

def openFile (p : Path) (modified : Time) (v : Volume) : Except IoError Volume := do
  match v.locate p with
  | .ok (.file _ _) => return v
  | _ => v.writeFile p .empty modified

def writeLink (p : Path) (target : Bytes) (v : Volume) : Except IoError Volume := do
  match ← v.ownPlace p with
  | (place, none) => return v.putAt place (some (.link target))
  | (_, some _) => throw .alreadyExists

def delete (p : Path) (v : Volume) : Except IoError Volume := do
  match ← v.ownPlace p with
  | (place, some _) => return v.putAt place none
  | (_, none) => throw .noEntry

def makeFolder (p : Path) (modified : Time) (v : Volume) : Except IoError Volume := do
  match ← v.ownPlace p with
  | (place, none) => return v.putAt place (some (.folder modified []))
  | (_, some _) => throw .alreadyExists

def ofSteps (anchor : Anchor) (names : List Bytes) : Path := ⟨anchor, names.flatMap (slash :: ·)⟩

def isFolderAt (v : Volume) (p : Path) : Bool :=
  match v.locate p with
  | .ok e => e.isFolder
  | .error _ => false

def makeFolderUnlessThere (p : Path) (modified : Time) (v : Volume) : Except IoError Volume :=
  match v.makeFolder p modified with
  | .ok v => .ok v
  | .error e => if v.isFolderAt p then .ok v else .error e

/-- Makes the folder at some names, given from the last to the first. Where it
turns out that what should hold it is missing, that is made before. -/
def makeAlong (anchor : Anchor) (modified : Time) :
    List Bytes → Volume → Except IoError Unit × Volume
  | [], v =>
    match v.makeFolderUnlessThere (ofSteps anchor []) modified with
    | .ok v => (.ok (), v)
    | .error e => (.error e, v)
  | n :: above, v =>
    let p := ofSteps anchor (n :: above).reverse
    match v.makeFolderUnlessThere p modified with
    | .ok v => (.ok (), v)
    | .error e =>
      if e.isNotFound then
        match makeAlong anchor modified above v with
        | (.error e, v) => (.error e, v)
        | (.ok (), v) =>
          match v.makeFolderUnlessThere p modified with
          | .ok v => (.ok (), v)
          | .error e => (.error e, v)
      else (.error e, v)

/-- A folder with all folders above it, as far as they are missing. What was
made stays there even if what comes after it cannot be made. -/
def makeFolders (p : Path) (modified : Time) (v : Volume) : Except IoError Unit × Volume :=
  match v.admissible p with
  | .error e => (.error e, v)
  | .ok () => makeAlong p.anchor modified p.steps.reverse v

def setModified (p : Path) (modified : Time) (v : Volume) : Except IoError Volume := do
  let place ← v.place false p
  match v.entryAt? place with
  | some (.folder _ es) => return v.putAt place (some (.folder modified es))
  | some (.file bytes _) => return v.putAt place (some (.file bytes modified))
  | _ => throw .noEntry

mutual

def listing (front : Bytes) : Entry → List Bytes
  | .folder _ es => listingOf front es
  | _ => []

def listingOf (front : Bytes) : List (Bytes × Entry) → List Bytes
  | [] => []
  | (n, e) :: es => (front ++ n) :: listing (front ++ n ++ [slash]) e ++ listingOf front es

end

def paths (v : Volume) : List String :=
  (((v.entryAt? v.homePlace).elim [] (listing [])).map Text.lossyUtf8).mergeSort fun a b => !decide (b < a)

end PathWatch.Disk.Volume
