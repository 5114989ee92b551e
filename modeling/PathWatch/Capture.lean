import PathWatch.Query
import PathWatch.Snapshot

/-!
A snapshot of a path is put together from a handle's answers. What is gone, at
whichever question that shows, counts as missing. A child that cannot be read
keeps what was known about it before and is named as a failure; only a failure
of the path itself makes the whole attempt fail.
-/
namespace PathWatch

structure Failure where
  file : FileId
  error : FsError
deriving DecidableEq, Repr

/-- What a visit of one path gives, the failures below it in the order in which
they were found, and the state that it leaves. -/
structure Visit (σ : Type) where
  result : Except FsError Snapshot
  failures : List Failure
  after : σ

namespace Visit

variable {σ : Type}

def found (snapshot : Snapshot) (s : σ) : Visit σ := ⟨.ok snapshot, [], s⟩

def failed (error : FsError) (s : σ) : Visit σ := ⟨.error error, [], s⟩

def settled (id : FileId) (v : Visit σ) : Visit σ :=
  match v.result with
  | .ok _ => v
  -- A path that is gone is missing, which is no failure.
  | .error e => if e.isNotFound then { v with result := .ok (.missing id) } else v

end Visit

namespace Capture

variable {H σ : Type}

structure Gathered (σ : Type) where
  children : List (String × Snapshot)
  failures : List Failure
  after : σ

def Gathered.add (g : Gathered σ) (name : String) (id : FileId) (prior : Option Snapshot)
    (v : Visit σ) : Gathered σ :=
  match v.result with
  | .ok s =>
    { children := if s.present then Keyed.insert name s g.children else g.children
      failures := g.failures ++ v.failures
      after := v.after }
  | .error e =>
    { children := match prior with
        | some s => Keyed.insert name s g.children
        | none => g.children
      failures := g.failures ++ v.failures ++ [⟨id, e⟩]
      after := v.after }

def gather (q : Queries H σ) (visit : H → Option Snapshot → σ → Visit σ)
    (known : List (String × Snapshot)) : List H → Gathered σ → Gathered σ
  | [], g => g
  | h :: hs, g =>
    let prior := known.lookup (q.name h)
    gather q visit known hs (g.add (q.name h) (q.id h) prior (visit h prior g.after))

def look (q : Queries H σ) (recursive : Bool) (visit : H → Option Snapshot → σ → Visit σ)
    (h : H) (previous : Option Snapshot) (s : σ) : Visit σ :=
  match q.isPresent h s with
  | (.error e, s) => .failed e s
  | (.ok false, s) => .found (.missing (q.id h)) s
  | (.ok true, s) =>
    match q.modified h s with
    | (.error e, s) => .failed e s
    | (.ok t, s) =>
      match q.isFolder h s with
      | (.error e, s) => .failed e s
      | (.ok false, s) =>
        match q.size h s with
        | (.error e, s) => .failed e s
        | (.ok n, s) => .found (.file (q.id h) t n) s
      | (.ok true, s) =>
        if recursive then
          match q.children h s with
          | (.error e, s) => .failed e s
          | (.ok hs, s) =>
            let known := (previous.map Snapshot.contents).getD []
            let g := gather q visit known hs ⟨[], [], s⟩
            ⟨.ok (.folder (q.id h) t g.children), g.failures, g.after⟩
        else .found (.folder (q.id h) t []) s

def tooDeep (id : FileId) : FsError := .unavailable s!"{id.text} lies too deep"

/-- A visit that goes down at most `depth` levels; what lies deeper is unavailable. -/
def visit (q : Queries H σ) (recursive : Bool) : Nat → H → Option Snapshot → σ → Visit σ
  | 0, h, _, s => .failed (tooDeep (q.id h)) s
  | depth + 1, h, previous, s =>
    (look q recursive (visit q recursive depth) h previous s).settled (q.id h)

/-- Where a child fails, no partial snapshot: the last failure found is the error. -/
def strict (v : Visit σ) : Except FsError Snapshot :=
  match v.failures.getLast? with
  | some f => v.result.bind fun _ => .error f.error
  | none => v.result

end Capture

end PathWatch
