import PathWatch.Cli.Command

/-!
Help pages. A list stands in two columns, unless its longest name takes much of
the line and some text would not fit beside it; then every text gets a line of
its own.
-/
namespace PathWatch.Cli

def lineWidth : Nat := 100

structure Row where
  name : String
  about : String
deriving DecidableEq, Repr

def fits (taken : Nat) (rows : List Row) : Bool :=
  let longest := (rows.map (·.name.length)).foldl max 2
  decide ((longest + taken) * 100 ≤ 40 * lineWidth) ||
    rows.all fun r => decide (longest + taken + r.about.length ≤ lineWidth)

def padRight (width : Nat) (text : String) : String :=
  text ++ String.ofList (List.replicate (width - text.length) ' ')

def rowText (columns : Bool) (longest : Nat) (front : String) (r : Row) : String :=
  if columns then s!"  {front}{padRight longest r.name}  {r.about}\n"
  else s!"  {front}{r.name}\n          {r.about}\n"

def OptionSpec.front (o : OptionSpec) : String :=
  match o.short with
  | some c => s!"-{c}, "
  | none => "    "

def OptionSpec.row (o : OptionSpec) : Row :=
  match o.kind with
  | .counter => ⟨s!"--{o.long}...", o.about⟩
  | .value _ name => ⟨s!"--{o.long} <{name}>", o.about⟩
  | _ => ⟨s!"--{o.long}", o.about⟩

def optionsText (options : List OptionSpec) : String :=
  let rows := options.map (·.row)
  let longest := (rows.map (·.name.length)).foldl max 2
  String.join (options.map fun o => rowText (fits 8 rows) longest o.front o.row)

def WordsSpec.usage (w : WordsSpec) (optional : Bool) : String :=
  (if optional then s!"[{w.name}]" else s!"<{w.name}>") ++ if w.many then "..." else ""

def commandsText : String :=
  let longest := (commands.map (·.name.length)).foldl max 2
  String.join (commands.map fun c => rowText true longest "" ⟨c.name, c.about⟩)

def page (c : CommandSpec) : String :=
  let optionsUsage := if c.options.isEmpty then "" else " [OPTIONS]"
  let optionsPart := if c.options.isEmpty then "" else s!"\nOptions:\n{optionsText c.options}"
  match c.words with
  | none =>
    s!"{c.about}\n\nUsage: {programName}{optionsUsage} <COMMAND>\n\n" ++
      s!"Commands:\n{commandsText}{optionsPart}"
  | some w =>
    let usage := w.usage c.options.isEmpty
    s!"{c.about}\n\nUsage: {programName} {c.name}{optionsUsage} {usage}\n\n" ++
      s!"Arguments:\n  {usage}  {w.about}\n{optionsPart}"

end PathWatch.Cli
