import PathWatch.Capture
import PathWatch.Cli.Command
import PathWatch.Cli.Listing
import PathWatch.Config.Load

/-!
What the program writes and how it ends. An error names what failed and, below
it, the causes from the outermost to the innermost; they are numbered if there
is more than one.
-/
namespace PathWatch.Cli

structure Ending where
  exit : Nat
  out : String
  err : String
deriving DecidableEq, Repr

def Ending.printed (text : String) : Ending := ⟨0, text, ""⟩

/-- A line break in a cause keeps the text that follows below the cause's beginning. -/
def causeText (front : String) (cause : String) : String :=
  let gap := String.ofList (List.replicate front.length ' ')
  "\n" ++ front ++ String.join (cause.toList.map fun c => if c = '\n' then "\n" ++ gap else c.toString)

def numberedFront (i : Nat) : String :=
  let digits := toString i
  String.ofList (List.replicate (5 - digits.length) ' ') ++ digits ++ ": "

def causesText : List String → String
  | [] => ""
  | [cause] => "\n\nCaused by:" ++ causeText "    " cause
  | causes => "\n\nCaused by:" ++
      String.join (causes.mapIdx fun i cause => causeText (numberedFront i) cause)

def Ending.failed (message : String) (causes : List String) : Ending :=
  ⟨1, "", s!"Error: {message}{causesText causes}\n"⟩

def Ending.misused (e : UsageError) : Ending :=
  ⟨2, "", s!"error: {e.message}\n\nFor more information, try '--help'.\n"⟩

def fsCauses : FsError → List String
  | .io cause => [(FsError.io cause).message, cause.message]
  | e => [e.message]

def loadCauses : LoadError → List String
  | .io cause => [(LoadError.io cause).message, cause.message]
  | e => [e.message]

def snapshotEnding (o : SnapshotOptions) : Except FsError Snapshot → Ending
  | .error e => .failed s!"Failed to capture {o.path}" (fsCauses e)
  | .ok s =>
    if !s.present then .failed s!"No such file or directory: {o.path}" []
    else if o.json then .printed ((json s).pretty 0 ++ "\n")
    else .printed (listing s)

/-- The settings of a watch: options count more than the file. -/
def WatchOptions.settings (o : WatchOptions) (file : Config) : Config :=
  { file with
    delayMs := o.delayMs.getD file.delayMs
    recursive := o.recursive || file.recursive
    checksPerRun := o.checksPerRun.getD file.checksPerRun }.normalized

def configEnding (path : String) (e : LoadError) : Ending :=
  .failed s!"Failed to load config from {path}" (loadCauses e)

structure LogPlace where
  directory : String
  name : String
deriving DecidableEq, Repr

def isIdle (part : List Char) : Bool := part == [] || part == ['.']

def dropIdleEnd (parts : List (List Char)) : List (List Char) :=
  (parts.reverse.dropWhile isIdle).reverse

/-- The first part counts even if it is a single dot, or empty before a slash. -/
def logPlace? (path : String) : Option LogPlace :=
  match Text.splitOn '/' path.toList with
  | [] => none
  | first :: rest =>
    match (dropIdleEnd rest).reverse with
    | [] =>
      if isIdle first || first == ['.', '.'] then none else some ⟨".", String.ofList first⟩
    | name :: above =>
      if name == ['.', '.'] then none
      else
        let directory := List.intercalate ['/'] (first :: dropIdleEnd above.reverse)
        some ⟨if directory.isEmpty then "/" else String.ofList directory, String.ofList name⟩

def noLogName (path : String) : Ending := .failed s!"Log file path has no file name: {path}" []

def logDirectoryEnding (place : LogPlace) (e : IoError) : Ending :=
  .failed s!"Failed to create log directory: {place.directory}" [e.message]

def logFileEnding (e : IoError) : Ending :=
  ⟨101, "", s!"initializing rolling file appender failed: {e.message}\n"⟩

end PathWatch.Cli
