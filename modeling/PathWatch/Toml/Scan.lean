/-!
Reading from the front of a list of characters. A reader gives what it read
together with the rest, or nothing at all; repetition is bounded by the number
of characters that are left.
-/
namespace PathWatch.Toml

abbrev Scan := StateT (List Char) Option

namespace Scan

def reject : Scan α := fun _ => none

def next? : Scan (Option Char) := fun cs => some (cs.head?, cs)

def span (p : Char → Bool) : Scan (List Char) := fun cs => some (cs.takeWhile p, cs.dropWhile p)

def skip (p : Char → Bool) : Scan Unit := fun cs => some ((), cs.dropWhile p)

def exactly (word : List Char) : Scan Unit := fun cs =>
  if word.isPrefixOf cs then some ((), cs.drop word.length) else none

def taken (word : List Char) : Scan Bool := fun cs =>
  if word.isPrefixOf cs then some (true, cs.drop word.length) else some (false, cs)

def atEnd : Scan Bool := fun cs => some (cs.isEmpty, cs)

def loop (step : α → Scan (α × Bool)) : Nat → α → Scan α
  | 0, _ => reject
  | fuel + 1, a => do
    let (a, again) ← step a
    if again then loop step fuel a else return a

def repeated (step : α → Scan (α × Bool)) (start : α) : Scan α := fun cs =>
  loop step (cs.length + 1) start cs

end Scan

def isBlank (c : Char) : Bool := c = ' ' || c = '\t'

def isCommentChar (c : Char) : Bool := c = '\t' || (' ' ≤ c && c ≠ '\x7f')

namespace Scan

def blanks : Scan Unit := skip isBlank

def lineBreak? : Scan Bool := do
  if ← taken ['\n'] then return true
  taken ['\r', '\n']

def comment : Scan Unit := do
  if ← taken ['#'] then skip isCommentChar

def lineEnd : Scan Unit := do
  blanks
  comment
  unless ← atEnd do
    unless ← lineBreak? do reject

def gaps : Scan Unit :=
  repeated (fun _ => do
    blanks
    comment
    return ((), ← lineBreak?)) ()

end Scan

end PathWatch.Toml
