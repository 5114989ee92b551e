/-!
What a watcher reports: a path started to exist, stopped existing, or is
another one than before. A path is named by its identity, which is text that
no part of the library takes apart.
-/
namespace PathWatch

/-- Two handles name the same path exactly when their identities are equal. -/
structure FileId where
  text : String
deriving DecidableEq, Repr, Inhabited

instance : LT FileId := ⟨fun a b => a.text < b.text⟩

instance (a b : FileId) : Decidable (a < b) := inferInstanceAs (Decidable (a.text < b.text))

inductive ChangeKind
  | created
  | deleted
  | changed
deriving DecidableEq, Repr, Inhabited

def ChangeKind.text : ChangeKind → String
  | .created => "created"
  | .deleted => "deleted"
  | .changed => "changed"

structure ChangeEvent where
  kind : ChangeKind
  file : FileId
deriving DecidableEq, Repr, Inhabited

namespace ChangeEvent

def created (file : FileId) : ChangeEvent := ⟨.created, file⟩
def deleted (file : FileId) : ChangeEvent := ⟨.deleted, file⟩
def changed (file : FileId) : ChangeEvent := ⟨.changed, file⟩

def text (e : ChangeEvent) : String := s!"{e.kind.text} {e.file.text}"

end ChangeEvent

end PathWatch
