import PathWatch.Text.Split
import PathWatch.Text.Utf8

/-!
Paths on a disk: bytes, of which the slash separates names. A path begins at
the root of the disk or at one of two directories whose own place is not looked
into: the home directory of the files and the directory one works in.
-/
namespace PathWatch.Disk

abbrev Bytes := List UInt8

def slash : UInt8 := 0x2F

def dot : Bytes := [0x2E]
def dotDot : Bytes := [0x2E, 0x2E]

inductive Anchor
  | top
  | home
  | work
deriving DecidableEq, Repr

/-- `rest` is what follows the anchor, with the slash in front of it. -/
structure Path where
  anchor : Anchor
  rest : Bytes
deriving DecidableEq, Repr

def isAbsolute (p : Bytes) : Bool := p.head? == some slash

namespace Path

def join (directory : Path) (p : Bytes) : Path :=
  if isAbsolute p then ⟨.top, p⟩
  else if directory.rest.getLast? == some slash then { directory with rest := directory.rest ++ p }
  else { directory with rest := directory.rest ++ slash :: p }

/-- The names on the way, with an empty one between two slashes and after a last slash. -/
def parts (p : Path) : List Bytes :=
  match p.rest with
  | [] => []
  | rest => (Text.splitOn slash rest).drop 1

def steps (p : Path) : List Bytes := p.parts.filter fun n => n ≠ [] && n ≠ dot

end Path

structure Labels where
  home : String
  work : String
  homeName : String
  workName : String
deriving Repr

namespace Labels

def text (l : Labels) : Anchor → String
  | .top => ""
  | .home => l.home
  | .work => l.work

end Labels

namespace Path

def text (l : Labels) (p : Path) : String := l.text p.anchor ++ Text.lossyUtf8 p.rest

/-- The last name of a path; one that ends by going up has only its full text. -/
def name (l : Labels) (p : Path) : String :=
  match p.steps.getLast?, p.anchor with
  | some n, _ => if n = dotDot then p.text l else Text.lossyUtf8 n
  | none, .top => p.text l
  | none, .home => l.homeName
  | none, .work => l.workName

end Path

end PathWatch.Disk
