import PathWatch.Config

/-!
Reading the words of a command line against a table of options. Options may
stand before, between and after the other words; after a word of two dashes
nothing is an option any more.
-/
namespace PathWatch.Cli

inductive ValueType
  | path
  | number
deriving DecidableEq, Repr

inductive OptionKind
  | switch
  | counter
  | value (type : ValueType) (name : String)
  | help
  | version
deriving DecidableEq, Repr

structure OptionSpec where
  long : String
  short : Option Char
  kind : OptionKind
  about : String
deriving Repr

structure WordsSpec where
  name : String
  many : Bool
  about : String
deriving Repr

/-- A command without words of its own stops at the first word. -/
structure CommandSpec where
  name : String
  about : String
  options : List OptionSpec
  words : Option WordsSpec
deriving Repr

inductive UsageError
  | unexpected (word : String)
  | missingValue (option : String)
  | unneededValue (option value : String)
  | invalidValue (value : String)
  | repeated (option : String)
  | missingWords (name : String)
  | missingCommand
  | unknownCommand (word : String)
deriving DecidableEq, Repr

def UsageError.message : UsageError → String
  | .unexpected word => s!"unexpected argument '{word}' found"
  | .missingValue option => s!"a value is required for '--{option}' but none was supplied"
  | .unneededValue option value => s!"unexpected value '{value}' for '--{option}' found"
  | .invalidValue value => s!"invalid value '{value}'"
  | .repeated option => s!"the argument '--{option}' cannot be used multiple times"
  | .missingWords name => s!"the following required arguments were not provided: <{name}>"
  | .missingCommand => "a command is required"
  | .unknownCommand word => s!"unrecognized subcommand '{word}'"

/-- A number of at most 64 bits, with a plus sign if one likes. -/
def number? (text : String) : Option Nat :=
  let digits := match text.toList with
    | '+' :: rest => rest
    | cs => cs
  if digits.isEmpty || !digits.all Char.isDigit then none
  else
    let n := Nat.ofDigitChars 10 digits 0
    if n ≤ maxMillis then some n else none

def ValueType.accepts : ValueType → String → Bool
  | .path, text => !text.isEmpty
  | .number, text => (number? text).isSome

structure Given where
  options : List (String × String) := []
  words : List String := []
deriving DecidableEq, Repr

namespace Given

def has (g : Given) (option : String) : Bool := (g.options.lookup option).isSome

def value? (g : Given) (option : String) : Option String := g.options.lookup option

def number? (g : Given) (option : String) : Option Nat :=
  (g.value? option).bind Cli.number?

def addOption (o : OptionSpec) (value : String) (g : Given) : Except UsageError Given :=
  if o.kind ≠ .counter && g.has o.long then .error (.repeated o.long)
  else .ok { g with options := g.options ++ [(o.long, value)] }

def addValue (o : OptionSpec) (type : ValueType) (value : String) (g : Given) :
    Except UsageError Given :=
  if type.accepts value then g.addOption o value else .error (.invalidValue value)

def addWord (c : CommandSpec) (word : String) (g : Given) : Except UsageError Given :=
  match c.words with
  | none => .error (.unexpected word)
  | some spec =>
    if !spec.many && !g.words.isEmpty then .error (.unexpected word)
    else if ValueType.path.accepts word then .ok { g with words := g.words ++ [word] }
    else .error (.invalidValue word)

end Given

inductive Reading
  | help
  | version
  | complete (g : Given)
  | stopped (word : String) (rest : List String) (g : Given)
deriving DecidableEq, Repr

/-- What a word looks like: two dashes alone, an option by its long name with or
without a value, options by their letters, or anything else. -/
inductive Form
  | escape
  | long (name : String) (value : Option String)
  | letters (letters : List Char)
  | word

def longForm (cs : List Char) : Form :=
  let name := cs.takeWhile (· ≠ '=')
  match cs.dropWhile (· ≠ '=') with
  | _ :: value => .long (String.ofList name) (some (String.ofList value))
  | [] => .long (String.ofList name) none

def formOf (word : String) : Form :=
  match word.toList with
  | ['-', '-'] => .escape
  | '-' :: '-' :: cs => longForm cs
  | '-' :: c :: cs => .letters (c :: cs)
  | _ => .word

def canBeValue (word : String) : Bool :=
  match formOf word with
  | .word => true
  | _ => false

def readLetters (c : CommandSpec) : List Char → Given → Except UsageError Reading
  | [], g => .ok (.complete g)
  | letter :: letters, g =>
    match c.options.find? fun o => o.short == some letter with
    | none => .error (.unexpected s!"-{letter}")
    | some o =>
      match o.kind with
      | .help => .ok .help
      | .version => .ok .version
      | .value _ _ => .error (.missingValue o.long)
      | .switch | .counter => do readLetters c letters (← g.addOption o "")

def read (c : CommandSpec) : List String → Given → Except UsageError Reading
  | [], g => .ok (.complete g)
  | word :: rest, g =>
    match formOf word with
    | .escape => do return .complete (← rest.foldlM (fun g w => g.addWord c w) g)
    | .word =>
      match c.words with
      | none => .ok (.stopped word rest g)
      | some _ => do read c rest (← g.addWord c word)
    | .letters letters => do
      match ← readLetters c letters g with
      | .complete g => read c rest g
      | reading => return reading
    | .long name value =>
      match c.options.find? fun o => o.long == name with
      | none => .error (.unexpected word)
      | some o =>
        match o.kind, value with
        | .help, none => .ok .help
        | .version, none => .ok .version
        | .switch, none | .counter, none => do read c rest (← g.addOption o "")
        | .value type _, some value => do read c rest (← g.addValue o type value)
        | .value type _, none =>
          match rest with
          | [] => .error (.missingValue name)
          | value :: rest =>
            if canBeValue value then do read c rest (← g.addValue o type value)
            else .error (.missingValue name)
        | _, some value => .error (.unneededValue name value)

end PathWatch.Cli
