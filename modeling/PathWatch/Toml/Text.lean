import PathWatch.Toml.Scan

/-!
Strings: in double quotes with escapes or in single quotes without, each on one
line or, in three quotes, on several. A line break inside is a line feed.
-/
namespace PathWatch.Toml

def hexValue (c : Char) : Option Nat :=
  if c.isDigit then some (c.toNat - '0'.toNat)
  else if 'a' ≤ c && c ≤ 'f' then some (c.toNat - 'a'.toNat + 10)
  else if 'A' ≤ c && c ≤ 'F' then some (c.toNat - 'A'.toNat + 10)
  else none

def charOfHex (digits : List Char) : Option Char := do
  let n ← digits.foldlM (fun n c => return 16 * n + (← hexValue c)) 0
  if n.isValidChar then some (Char.ofNat n) else none

def plainEscape : Char → Option Char
  | 'b' => some '\x08'
  | 't' => some '\t'
  | 'n' => some '\n'
  | 'f' => some '\x0c'
  | 'r' => some '\r'
  | '"' => some '"'
  | '\\' => some '\\'
  | _ => none

def isQuotable (c : Char) : Bool := isCommentChar c

def prepend (c : Char) (r : Option (List Char × List Char)) : Option (List Char × List Char) :=
  r.map fun (text, rest) => (c :: text, rest)

def basicBody : List Char → Option (List Char × List Char)
  | [] => none
  | '"' :: cs => some ([], cs)
  | '\\' :: 'u' :: a :: b :: c :: d :: cs => do
    prepend (← charOfHex [a, b, c, d]) (basicBody cs)
  | '\\' :: 'U' :: a :: b :: c :: d :: e :: f :: g :: h :: cs => do
    prepend (← charOfHex [a, b, c, d, e, f, g, h]) (basicBody cs)
  | '\\' :: c :: cs => do prepend (← plainEscape c) (basicBody cs)
  | c :: cs => if isQuotable c && c ≠ '\\' then prepend c (basicBody cs) else none

def literalBody : List Char → Option (List Char × List Char)
  | [] => none
  | '\'' :: cs => some ([], cs)
  | c :: cs => if isQuotable c then prepend c (literalBody cs) else none

/-- Inside three quotes a backslash at the end of a line joins it to the next
text: first its blanks are passed over, then all blanks and line breaks. -/
inductive Join
  | none
  | lineRest
  | blankLines

def longBasicBody : Join → List Char → Option (List Char × List Char)
  | _, [] => .none
  | .lineRest, '\n' :: cs => longBasicBody .blankLines cs
  | .lineRest, '\r' :: '\n' :: cs => longBasicBody .blankLines cs
  | .lineRest, c :: cs => if isBlank c then longBasicBody .lineRest cs else .none
  | .blankLines, ' ' :: cs => longBasicBody .blankLines cs
  | .blankLines, '\t' :: cs => longBasicBody .blankLines cs
  | .blankLines, '\n' :: cs => longBasicBody .blankLines cs
  | .blankLines, '\r' :: '\n' :: cs => longBasicBody .blankLines cs
  | _, '"' :: '"' :: '"' :: '"' :: '"' :: cs => some (['"', '"'], cs)
  | _, '"' :: '"' :: '"' :: '"' :: cs => some (['"'], cs)
  | _, '"' :: '"' :: '"' :: cs => some ([], cs)
  | _, '\r' :: '\n' :: cs => prepend '\n' (longBasicBody .none cs)
  | _, '\n' :: cs => prepend '\n' (longBasicBody .none cs)
  | _, '\\' :: 'u' :: a :: b :: c :: d :: cs => do
    prepend (← charOfHex [a, b, c, d]) (longBasicBody .none cs)
  | _, '\\' :: 'U' :: a :: b :: c :: d :: e :: f :: g :: h :: cs => do
    prepend (← charOfHex [a, b, c, d, e, f, g, h]) (longBasicBody .none cs)
  | _, '\\' :: c :: cs =>
    match plainEscape c with
    | some e => prepend e (longBasicBody .none cs)
    | .none => if isBlank c || c = '\n' || c = '\r' then longBasicBody .lineRest (c :: cs) else .none
  | _, c :: cs => if isQuotable c && c ≠ '\\' then prepend c (longBasicBody .none cs) else .none

def longLiteralBody : List Char → Option (List Char × List Char)
  | [] => none
  | '\'' :: '\'' :: '\'' :: '\'' :: '\'' :: cs => some (['\'', '\''], cs)
  | '\'' :: '\'' :: '\'' :: '\'' :: cs => some (['\''], cs)
  | '\'' :: '\'' :: '\'' :: cs => some ([], cs)
  | '\r' :: '\n' :: cs => prepend '\n' (longLiteralBody cs)
  | c :: cs => if isQuotable c || c = '\n' then prepend c (longLiteralBody cs) else none

def dropLineBreak : List Char → List Char
  | '\n' :: cs => cs
  | '\r' :: '\n' :: cs => cs
  | cs => cs

def asText (body : List Char → Option (List Char × List Char)) : Scan String := fun cs => do
  let (text, rest) ← body cs
  return (String.ofList text, rest)

def shortText : Scan String := do
  if ← Scan.taken ['"'] then asText basicBody
  else if ← Scan.taken ['\''] then asText literalBody
  else Scan.reject

def text : Scan String := do
  if ← Scan.taken ['"', '"', '"'] then asText (longBasicBody .none ∘ dropLineBreak)
  else if ← Scan.taken ['\'', '\'', '\''] then asText (longLiteralBody ∘ dropLineBreak)
  else shortText

end PathWatch.Toml
