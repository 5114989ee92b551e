import PathWatch.Config.Decode
import PathWatch.Disk.Tree
import PathWatch.Toml.Site

/-!
Settings from a file on a disk.
-/
namespace PathWatch

/-- An error's message, with the place in the text that it is about. A key that
is not known is at fault itself; otherwise what it stands for is. -/
def ConfigError.located (text : String) (e : ConfigError) : String :=
  let place := match e with
    | .notADocument => none
    | .unknownKey key => (Toml.site? text key).map (·.name)
    | .wrongType key _ _ | .negative key _ _ =>
      (Toml.site? text key).map fun s => s.item.getD s.name
  match place with
  | some s => Toml.pointed text s e.message
  | none => e.message

inductive LoadError
  | io (cause : IoError)
  | invalid (path : String) (text : String) (cause : ConfigError)

def LoadError.message : LoadError → String
  | .io cause => s!"IO error: {cause.message}"
  | .invalid path text cause => s!"Configuration error: {path}: {cause.located text}"

def Config.ofFile (shown : String) : Except IoError String → Except LoadError Config
  | .error e => .error (.io e)
  | .ok text =>
    match Config.ofToml text with
    | .error e => .error (.invalid shown text e)
    | .ok c => .ok c

def Config.load (disk : Disk.Volume) (path : Disk.Path) (shown : String) :
    Except LoadError Config :=
  Config.ofFile shown (disk.readText path)

end PathWatch
