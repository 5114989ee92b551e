import PathWatch.Toml.Number

/-!
A whole document: lines that open a table or add a pair to the one that is
open. The text is refused as a whole when any line breaks a rule.
-/
namespace PathWatch.Toml

def isBareKeyChar (c : Char) : Bool := c.isAlphanum || c = '-' || c = '_'

def bareKey : Scan String := do
  let cs ← Scan.span isBareKeyChar
  if cs.isEmpty then Scan.reject else return String.ofList cs

def simpleKey : Scan String := do
  match ← Scan.next? with
  | some '"' | some '\'' => shortText
  | _ => bareKey

/-- Values and tables nest at most this deep, and so do dotted keys. -/
def depthLimit : Nat := 79

def dottedKey : Scan (List String × String) := do
  let parts ← Scan.repeated (fun parts => do
    Scan.blanks
    let key ← simpleKey
    Scan.blanks
    return (parts ++ [key], ← Scan.taken ['.'])) []
  match parts.getLast? with
  | some name => if parts.length ≤ depthLimit then return (parts.dropLast, name) else Scan.reject
  | none => Scan.reject

def pairOf (value : Scan Item) : Scan (List String × String × Item) := do
  let (path, name) ← dottedKey
  Scan.exactly ['=']
  Scan.blanks
  return (path, name, ← value)

def arrayRest (value : Scan Item) : Scan (List Item) :=
  Scan.repeated (fun items => do
    Scan.gaps
    if ← Scan.taken [']'] then return (items, false)
    let item ← value
    Scan.gaps
    if ← Scan.taken [','] then return (items ++ [item], true)
    Scan.exactly [']']
    return (items ++ [item], false)) []

def tableRest (value : Scan Item) : Scan (List (List String × String × Item)) := do
  Scan.blanks
  if ← Scan.taken ['}'] then return []
  Scan.repeated (fun pairs => do
    let pair ← pairOf value
    Scan.blanks
    if ← Scan.taken [','] then return (pairs ++ [pair], true)
    Scan.exactly ['}']
    return (pairs ++ [pair], false)) []

def value : (depth : Nat) → Scan Item
  | 0 => do
    match ← Scan.next? with
    | some '"' | some '\'' => return .scalar (.string (← text))
    | _ => return .scalar (← bareValue)
  | depth + 1 => do
    match ← Scan.next? with
    | some '"' | some '\'' => return .scalar (.string (← text))
    | some '[' =>
      Scan.exactly ['[']
      return .array (← arrayRest (value depth))
    | some '{' =>
      Scan.exactly ['{']
      let pairs ← tableRest (value depth)
      return .table .inline (← StateT.lift (ofPairs pairs))
    | _ => return .scalar (← bareValue)

def headerLine : Scan Line := do
  if ← Scan.taken ['[', '['] then
    let (path, name) ← dottedKey
    Scan.exactly [']', ']']
    return .element path name
  else
    Scan.exactly ['[']
    let (path, name) ← dottedKey
    Scan.exactly [']']
    return .header path name

def line : Scan Line := do
  match ← Scan.next? with
  | some '[' => headerLine
  | _ =>
    let (path, name, item) ← pairOf (value depthLimit)
    return .pair path name item

def lines : Scan (List Line) :=
  Scan.repeated (fun ls => do
    Scan.gaps
    if ← Scan.atEnd then return (ls, false)
    let l ← line
    Scan.lineEnd
    return (ls ++ [l], true)) []

/-- The top-level pairs of a document in their order. A byte order mark in front is passed over. -/
def parse (text : String) : Option Entries := do
  let cs := match text.toList with
    | '\ufeff' :: cs => cs
    | cs => cs
  let (ls, _) ← lines.run cs
  ofLines ls

end PathWatch.Toml
