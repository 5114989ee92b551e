import PathWatch.Event
import PathWatch.Text.Split

/-!
Paths of the store in memory: lists of names. A path may be written with the
scheme in front, without a leading slash, with repeated slashes and with single
dots; what is left out of these makes no difference.
-/
namespace PathWatch.Memory

abbrev Path := List String

def scheme : String := "mem://"

def dropScheme (cs : List Char) : List Char :=
  if scheme.toList.isPrefixOf cs then cs.drop scheme.length else cs

def IsSegment (part : List Char) : Prop := part ≠ [] ∧ part ≠ ['.'] ∧ '/' ∉ part

namespace Path

def ofText (text : String) : Path :=
  ((Text.splitOn '/' (dropScheme text.toList)).filter fun part =>
    decide (part ≠ []) && decide (part ≠ ['.'])).map String.ofList

def text (p : Path) : String := "/" ++ "/".intercalate p

def idText (p : Path) : String := scheme ++ text p

def id (p : Path) : FileId := ⟨idText p⟩

def name (p : Path) : String := p.getLast?.getD ""

def parent? (p : Path) : Option Path := if p.isEmpty then none else some p.dropLast

def ancestors : Path → List Path
  | [] => []
  | name :: rest => [] :: (ancestors rest).map (name :: ·)

def normalForm (text : String) : String := (ofText text).text

end Path

end PathWatch.Memory
