import PathWatch.Config
import PathWatch.Text.Quoted
import PathWatch.Toml.Document

/-!
Settings from the top-level pairs of a document. A key that is left out takes
its default; the first pair that does not fit decides the error.
-/
namespace PathWatch

/-- What a setting takes. Both kinds of number reach from 0 to `maxMillis`. -/
inductive SettingType
  | flag
  | millis
  | count
deriving DecidableEq, Repr

def SettingType.text : SettingType → String
  | .flag => "a boolean"
  | .millis => "u64"
  | .count => "usize"

inductive ConfigError
  | notADocument
  | unknownKey (key : String)
  | wrongType (key : String) (found : Toml.Item) (expected : SettingType)
  | negative (key : String) (value : Int) (expected : SettingType)
deriving Repr

def Toml.Item.description : Toml.Item → String
  | .scalar (.boolean b) => s!"boolean `{b}`"
  | .scalar (.integer i) => s!"integer `{i}`"
  | .scalar (.float f) => s!"floating point `{f.text}`"
  | .scalar (.string s) => s!"string {Text.quoted s}"
  | .scalar (.datetime _) => "map"
  | .array _ => "sequence"
  | .table _ _ => "map"
  | .tables _ => "sequence"

namespace ConfigError

def keys : List String :=
  ["delay_ms", "recursive", "checks_per_run", "slow_capture_warn_ms", "diagnostics_capacity"]

def message : ConfigError → String
  | .notADocument => "not a TOML document"
  | .unknownKey key =>
    s!"unknown field `{key}`, expected one of " ++ ", ".intercalate (keys.map fun k => s!"`{k}`")
  | .wrongType _ found expected => s!"invalid type: {found.description}, expected {expected.text}"
  | .negative _ value expected => s!"invalid value: integer `{value}`, expected {expected.text}"

end ConfigError

namespace Config

def natural (key : String) (type : SettingType) : Toml.Item → Except ConfigError Nat
  | .scalar (.integer (.ofNat n)) => .ok n
  | .scalar (.integer i) => .error (.negative key i type)
  | item => .error (.wrongType key item type)

def flag (key : String) : Toml.Item → Except ConfigError Bool
  | .scalar (.boolean b) => .ok b
  | item => .error (.wrongType key item .flag)

def set (c : Config) (key : String) (item : Toml.Item) : Except ConfigError Config :=
  match key with
  | "delay_ms" => (natural key .millis item).map fun n => { c with delayMs := n }
  | "recursive" => (flag key item).map fun b => { c with recursive := b }
  | "checks_per_run" => (natural key .count item).map fun n => { c with checksPerRun := n }
  | "slow_capture_warn_ms" =>
    (natural key .millis item).map fun n => { c with slowCaptureWarnMs := n }
  | "diagnostics_capacity" =>
    (natural key .count item).map fun n => { c with diagnosticsCapacity := n }
  | _ => .error (.unknownKey key)

def ofEntries (es : Toml.Entries) : Except ConfigError Config :=
  Config.normalized <$> es.foldlM (fun c e => c.set e.1 e.2) {}

/-- Settings from a text, by whatever way there is to take its top-level pairs from it. -/
def ofDocument (parse : String → Option Toml.Entries) (text : String) :
    Except ConfigError Config :=
  match parse text with
  | none => .error .notADocument
  | some es => ofEntries es

def ofToml : String → Except ConfigError Config := ofDocument Toml.parse

end Config

end PathWatch
