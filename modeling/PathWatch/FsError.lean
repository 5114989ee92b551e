import PathWatch.Os

/-!
How a query about a path fails. Only a path that is gone counts as not found;
every other failure leaves what was known about the path as it was.
-/
namespace PathWatch

inductive FsError
  | notFound (path : String)
  | notAFolder (path : String)
  | unavailable (reason : String)
  | io (cause : IoError)
deriving DecidableEq, Repr, Inhabited

namespace FsError

def message : FsError → String
  | .notFound path => s!"Path not found: {path}"
  | .notAFolder path => s!"Not a folder: {path}"
  | .unavailable reason => s!"Unavailable: {reason}"
  | .io cause => s!"IO error: {cause.message}"

/-- A system failure at a path; one that says that nothing is there names the path. -/
def ofIo (path : String) (e : IoError) : FsError :=
  if e.isNotFound then .notFound path else .io e

def isNotFound : FsError → Bool
  | .notFound _ => true
  | .io cause => cause.isNotFound
  | _ => false

end FsError

end PathWatch
