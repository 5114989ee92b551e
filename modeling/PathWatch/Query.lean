import PathWatch.Event
import PathWatch.FsError
import PathWatch.Time

/-!
The few questions that a watcher asks about a path. A handle answers them from
a state `σ`, and asking may change that state: a real file may be gone a moment
later, and a scripted one may do anything.
-/
namespace PathWatch

structure Queries (H σ : Type) where
  id : H → FileId
  name : H → String
  isPresent : H → σ → Except FsError Bool × σ
  modified : H → σ → Except FsError Time × σ
  isFolder : H → σ → Except FsError Bool × σ
  size : H → σ → Except FsError Nat × σ
  children : H → σ → Except FsError (List H) × σ

end PathWatch
