import PathWatch.Cli.Option

/-!
The commands of the program and their options.
-/
namespace PathWatch.Cli

def programName : String := "statwatch"
def programVersion : String := "0.1.0"

def verbose : OptionSpec :=
  ⟨"verbose", some 'v', .counter, "Increase log verbosity (-v info, -vv debug, -vvv trace)"⟩

def logFile : OptionSpec :=
  ⟨"log-file", none, .value .path "LOG_FILE", "Write logs to this file instead of stderr"⟩

def help : OptionSpec := ⟨"help", some 'h', .help, "Print help"⟩

def version : OptionSpec := ⟨"version", some 'V', .version, "Print version"⟩

def program : CommandSpec where
  name := programName
  about := "Statwatch - Polling file and directory change monitor"
  options := [verbose, logFile, help, version]
  words := none

def watch : CommandSpec where
  name := "watch"
  about := "Watch paths and print changes until interrupted"
  options := [
    ⟨"delay-ms", none, .value .number "DELAY_MS",
      "Delay between polls in milliseconds (default: 1000)"⟩,
    verbose,
    logFile,
    ⟨"recursive", some 'r', .switch, "Also report changes below watched directories"⟩,
    ⟨"checks-per-run", none, .value .number "CHECKS_PER_RUN",
      "Paths checked before pausing one delay; 0 disables the pause"⟩,
    ⟨"config", none, .value .path "CONFIG", "TOML configuration file"⟩,
    ⟨"json", none, .switch, "Print events as JSON lines"⟩,
    help]
  words := some ⟨"PATHS", true, "Files or directories to watch"⟩

def snapshot : CommandSpec where
  name := "snapshot"
  about := "Capture and print the current state of a path"
  options := [
    ⟨"recursive", some 'r', .switch, "Include everything below a directory"⟩,
    verbose,
    ⟨"json", none, .switch, "Print as JSON"⟩,
    logFile,
    help]
  words := some ⟨"PATH", false, "File or directory to capture"⟩

def explain : CommandSpec where
  name := "help"
  about := "Print this message or the help of the given subcommand(s)"
  options := []
  words := some ⟨"COMMAND", true, "Print help for the subcommand(s)"⟩

def commands : List CommandSpec := [watch, snapshot, explain]

structure WatchOptions where
  paths : List String
  delayMs : Option Nat
  recursive : Bool
  checksPerRun : Option Nat
  config : Option String
  json : Bool
deriving DecidableEq, Repr

structure SnapshotOptions where
  path : String
  recursive : Bool
  json : Bool
deriving DecidableEq, Repr

inductive Command
  | watch (options : WatchOptions)
  | snapshot (options : SnapshotOptions)
deriving DecidableEq, Repr

inductive Request
  | help (page : CommandSpec)
  | version
  | run (logFile : Option String) (command : Command)

def explained : List String → Except UsageError Request
  | [] => .ok (.help program)
  | name :: rest =>
    match commands.find? (fun c => c.name == name), rest with
    | none, _ => .error (.unknownCommand name)
    | some c, [] => .ok (.help c)
    | some _, next :: _ => .error (.unknownCommand next)

def watchCommand (g : Given) : Except UsageError Command :=
  if g.words.isEmpty then .error (.missingWords "PATHS")
  else .ok (.watch {
    paths := g.words
    delayMs := g.number? "delay-ms"
    recursive := g.has "recursive"
    checksPerRun := g.number? "checks-per-run"
    config := g.value? "config"
    json := g.has "json" })

def snapshotCommand (g : Given) : Except UsageError Command :=
  match g.words with
  | [path] => .ok (.snapshot { path, recursive := g.has "recursive", json := g.has "json" })
  | _ => .error (.missingWords "PATH")

/-- A command's own words, where `general` was given before its name. An option
of the program counts as it is given last. -/
def commandRequest (c : CommandSpec) (build : Given → Except UsageError Command)
    (general : Given) (rest : List String) : Except UsageError Request := do
  match ← read c rest {} with
  | .help => return .help c
  | .version => return .version
  | .stopped word _ _ => throw (.unexpected word)
  | .complete g => return .run ((g.value? "log-file").or (general.value? "log-file")) (← build g)

def request (words : List String) : Except UsageError Request := do
  match ← read program words {} with
  | .help => return .help program
  | .version => return .version
  | .complete _ => throw .missingCommand
  | .stopped name rest general =>
    if name = watch.name then commandRequest watch watchCommand general rest
    else if name = snapshot.name then commandRequest snapshot snapshotCommand general rest
    else if name = explain.name then explained rest
    else throw (.unknownCommand name)

end PathWatch.Cli
