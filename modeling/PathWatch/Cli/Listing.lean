import PathWatch.Cli.Style
import PathWatch.Format.Bytes
import PathWatch.Format.Calendar
import PathWatch.Json
import PathWatch.Snapshot

/-!
A snapshot for the eye, a line for each path with the paths below it indented,
and as JSON.
-/
namespace PathWatch.Cli

def timeText (t : Option Time) : String := (t.bind Calendar.gregorian.absoluteOf).getD ""

def line (depth : Nat) (name : String) (f : Facts) : String :=
  Json.indented depth ++
    if f.isFolder then s!"{bold (blue name)}/  {dimmed (timeText f.modified)}\n"
    else s!"{name}  {cyan (Format.byteSize f.size)}  {dimmed (timeText f.modified)}\n"

mutual

def tree (depth : Nat) (name : String) : Snapshot → String
  | .node f cs => line depth name f ++ trees (depth + 1) cs

def trees (depth : Nat) : List (String × Snapshot) → String
  | [] => ""
  | (name, s) :: cs => tree depth name s ++ trees depth cs

end

def listing (s : Snapshot) : String := s!"{tree 0 s.id.text s}\n{s.nodeCount} path(s)\n"

def ownFields (f : Facts) : List (String × Json) :=
  [("path", .text f.id.text), ("kind", .text (if f.isFolder then "folder" else "file"))] ++
    (if f.isFolder then [] else [("size", .number f.size)]) ++
    [("modified", match f.modified.bind Calendar.gregorian.timestampOf with
      | some text => .text text
      | none => .null)]

mutual

def json : Snapshot → Json
  | .node f [] => .record (ownFields f)
  | .node f (c :: cs) => .record (ownFields f ++ [("children", .list (jsons (c :: cs)))])

def jsons : List (String × Snapshot) → List Json
  | [] => []
  | (_, s) :: cs => json s :: jsons cs

end

end PathWatch.Cli
