import PathWatch.Text.Split
import PathWatch.Toml.Document

/-!
Where in a document a top-level key and what it stands for are written, and how
a message points there: it shows the line and marks the place below it.
-/
namespace PathWatch.Toml

structure Stretch where
  start : Nat
  stop : Nat
deriving DecidableEq, Repr

/-- A line that mentions a top-level key. `item` is the key's value, or the
header that opens its table; a line that only reaches below the key has neither. -/
structure Site where
  key : String
  name : Stretch
  item : Option Stretch
deriving DecidableEq, Repr

def stretch (total left : Nat) (rest : List Char) : Stretch := ⟨total - left, total - rest.length⟩

def firstKey (path : List String) (name : String) : String := path.head?.getD name

def nameStretch (total : Nat) (cs : List Char) : Option Stretch := do
  let cs := cs.dropWhile isBlank
  let (_, rest) ← simpleKey.run cs
  return stretch total cs.length rest

def pairSite (total : Nat) (path : List String) (name : String) (cs : List Char) : Option Site := do
  let (_, rest) ← dottedKey.run cs
  let value := (rest.drop 1).dropWhile isBlank
  let (_, rest) ← (Toml.value depthLimit).run value
  return {
    key := firstKey path name
    name := ← nameStretch total cs
    item := if path.isEmpty then some (stretch total value.length rest) else none }

def headerSite (total brackets : Nat) (path : List String) (name : String) (cs rest : List Char) :
    Option Site := do
  return {
    key := firstKey path name
    name := ← nameStretch total (cs.drop brackets)
    item := if path.isEmpty then some (stretch total cs.length rest) else none }

structure Standing where
  line : Line
  text : List Char
  rest : List Char

def Standing.isPair (l : Standing) : Bool :=
  match l.line with
  | .pair .. => true
  | _ => false

def Standing.site? (total : Nat) (l : Standing) : Option Site :=
  match l.line with
  | .pair path name _ => pairSite total path name l.text
  | .header path name => headerSite total 1 path name l.text l.rest
  | .element path name => headerSite total 2 path name l.text l.rest

def standing : Scan (List Standing) :=
  Scan.repeated (fun ls => do
    Scan.gaps
    if ← Scan.atEnd then return (ls, false)
    let text ← get
    let line ← Toml.line
    let rest ← get
    Scan.lineEnd
    return (ls ++ [⟨line, text, rest⟩], true)) []

def Site.reaching (total : Nat) (below : List Standing) (s : Site) : Site :=
  match below.getLast? with
  | some l => { s with item := s.item.map ({ · with stop := total - l.rest.length }) }
  | none => s

def headerSites (total : Nat) : List Standing → List Site
  | [] => []
  | l :: ls =>
    let here := if l.isPair then none else l.site? total
    (here.map (Site.reaching total (ls.takeWhile Standing.isPair))).toList ++ headerSites total ls

def sites (total : Nat) (ls : List Standing) : List Site :=
  (ls.takeWhile Standing.isPair).filterMap (Standing.site? total) ++
    headerSites total (ls.dropWhile Standing.isPair)

/-- The site of a key. Where a table is opened counts more than where something
below it was mentioned before, and tables of one list are one item. -/
def site? (text : String) (key : String) : Option Site := do
  let all := text.toList
  let cs := match all with
    | '\ufeff' :: cs => cs
    | cs => cs
  let (ls, _) ← standing.run cs
  let mine := (sites all.length ls).filter fun s => s.key == key
  let opened := mine.filter fun s => s.item.isSome
  match opened.head?, opened.getLast?.bind (·.item) with
  | some s, some last => return { s with item := s.item.map ({ · with stop := last.stop }) }
  | _, _ => mine.head?

def repeated (n : Nat) (c : Char) : String := String.ofList (List.replicate n c)

def pointed (text : String) (s : Stretch) (message : String) : String :=
  let before := text.toList.take s.start
  let row := before.count '\n'
  let column := (before.reverse.takeWhile (· ≠ '\n')).length
  let content := String.ofList ((Text.splitOn '\n' text.toList)[row]?.getD [])
  let size := (String.ofList ((text.toList.take s.stop).drop s.start)).utf8ByteSize
  let width := max 1 (min size (content.utf8ByteSize - column))
  let number := toString (row + 1)
  let place := column + 1
  let space := repeated column ' '
  let mark := repeated width '^'
  let gutter := repeated (number.length + 1) ' ' ++ "|"
  s!"TOML parse error at line {number}, column {place}\n{gutter}\n{number} | {content}\n" ++
    s!"{gutter} {space}{mark}\n{message}\n"

end PathWatch.Toml
