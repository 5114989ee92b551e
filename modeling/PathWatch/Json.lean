/-!
Values of the JSON format and how they are written over several lines.
-/
namespace PathWatch

inductive Json
  | null
  | number (n : Nat)
  | text (s : String)
  | list (items : List Json)
  | record (fields : List (String × Json))

namespace Json

def lowHex (n : Nat) : String :=
  String.ofList [Nat.digitChar (n / 16), Nat.digitChar (n % 16)]

def escapedChar (c : Char) : String :=
  if c = '"' then "\\\""
  else if c = '\\' then "\\\\"
  else if c = '\n' then "\\n"
  else if c = '\r' then "\\r"
  else if c = '\t' then "\\t"
  else if c = '\x08' then "\\b"
  else if c = '\x0c' then "\\f"
  else if c.toNat < 32 then "\\u00" ++ lowHex c.toNat
  else c.toString

def quoted (s : String) : String := "\"" ++ String.join (s.toList.map escapedChar) ++ "\""

def indented (depth : Nat) : String := String.ofList (List.replicate (2 * depth) ' ')

mutual

def pretty (depth : Nat) : Json → String
  | null => "null"
  | number n => toString n
  | text s => quoted s
  | list [] => "[]"
  | list (x :: xs) => "[\n" ++ ",\n".intercalate (items (depth + 1) (x :: xs)) ++
      "\n" ++ indented depth ++ "]"
  | record [] => "\x7b\x7d"
  | record (f :: fs) => "\x7b\n" ++ ",\n".intercalate (fields (depth + 1) (f :: fs)) ++
      "\n" ++ indented depth ++ "\x7d"

def items (depth : Nat) : List Json → List String
  | [] => []
  | x :: xs => (indented depth ++ pretty depth x) :: items depth xs

def fields (depth : Nat) : List (String × Json) → List String
  | [] => []
  | (name, x) :: fs =>
    (indented depth ++ quoted name ++ ": " ++ pretty depth x) :: fields depth fs

end

end Json

end PathWatch
