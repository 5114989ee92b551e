import PathWatch.Toml.Item
import PathWatch.Toml.Text

/-!
Numbers, dates and the bare words of a document. Each is one unbroken run of
characters that is read as a whole; only a date may be followed by a blank and
a time.
-/
namespace PathWatch.Toml

/-- Digits in which single underscores may separate two digits. -/
def grouped (digit : Char → Bool) : List Char → Option (List Char)
  | [] => none
  | [c] => if digit c then some [c] else none
  | c :: '_' :: cs => if digit c then (c :: ·) <$> grouped digit cs else none
  | c :: cs => if digit c then (c :: ·) <$> grouped digit cs else none

def decimalValue (digits : List Char) : Nat :=
  digits.foldl (fun n c => 10 * n + (c.toNat - '0'.toNat)) 0

def signed : List Char → Bool × List Char
  | '-' :: cs => (true, cs)
  | '+' :: cs => (false, cs)
  | cs => (false, cs)

def decimalDigits (cs : List Char) : Option (List Char) := do
  let digits ← grouped Char.isDigit cs
  match digits with
  | '0' :: _ :: _ => none
  | _ => return digits

def leastInteger : Int := Int64.minValue.toInt
def greatestInteger : Int := Int64.maxValue.toInt

def inRange (n : Int) : Option Scalar :=
  if leastInteger ≤ n ∧ n ≤ greatestInteger then some (.integer n) else none

def isDigitOf (base : Nat) (c : Char) : Bool :=
  match hexValue c with
  | some d => decide (d < base)
  | none => false

def basedInteger (base : Nat) (cs : List Char) : Option Scalar := do
  let digits ← grouped (isDigitOf base) cs
  inRange (digits.foldl (fun n c => base * n + (hexValue c).getD 0) 0 : Nat)

def integer : List Char → Option Scalar
  | '0' :: 'x' :: cs => basedInteger 16 cs
  | '0' :: 'o' :: cs => basedInteger 8 cs
  | '0' :: 'b' :: cs => basedInteger 2 cs
  | cs => do
    let (negative, cs) := signed cs
    let n := decimalValue (← decimalDigits cs)
    inRange (if negative then -(n : Int) else n)

def isExponentMark (c : Char) : Bool := c = 'e' || c = 'E'

def exponent : List Char → Option Int
  | [] => some 0
  | c :: cs => do
    if isExponentMark c then
      let (negative, cs) := signed cs
      let n := decimalValue (← grouped Char.isDigit cs)
      return if negative then -(n : Int) else n
    else none

/-- A number that is too large to hold is refused; one that is too small below
zero is minus infinity. -/
def float (cs : List Char) : Option Scalar := do
  let (negative, cs) := signed cs
  match cs with
  | ['i', 'n', 'f'] => return .float (.infinite negative)
  | ['n', 'a', 'n'] => return .float .nan
  | _ =>
    let isWhole (c : Char) : Bool := c ≠ '.' && !isExponentMark c
    let whole ← decimalDigits (cs.takeWhile isWhole)
    let (part, rest) ← match cs.dropWhile isWhole with
      | '.' :: rest => do
        let part ← grouped Char.isDigit (rest.takeWhile fun c => !isExponentMark c)
        pure (part, rest.dropWhile fun c => !isExponentMark c)
      | [] => none
      | rest => pure ([], rest)
    let power ← exponent rest
    let value := Number.Binary64.ofDecimal negative (decimalValue (whole ++ part)) (power - part.length)
    if value = .infinite false then none else return .float value

def field (width low high : Nat) (cs : List Char) : Option (Nat × List Char) :=
  let digits := cs.take width
  let n := decimalValue digits
  if digits.length = width && digits.all Char.isDigit && decide (low ≤ n) && decide (n ≤ high)
  then some (n, cs.drop width) else none

def mark (c : Char) : List Char → Option (List Char)
  | d :: cs => if c = d then some cs else none
  | [] => none

def daysInMonth (year month : Nat) : Nat :=
  if month = 2 then
    if year % 4 = 0 && (year % 100 ≠ 0 || year % 400 = 0) then 29 else 28
  else if month = 4 || month = 6 || month = 9 || month = 11 then 30 else 31

def date (cs : List Char) : Option (List Char) := do
  let (year, cs) ← field 4 0 9999 cs
  let (month, cs) ← field 2 1 12 (← mark '-' cs)
  let (_, cs) ← field 2 1 (daysInMonth year month) (← mark '-' cs)
  return cs

/-- A leap second is allowed in any minute. -/
def timeOfDay (cs : List Char) : Option (List Char) := do
  let (_, cs) ← field 2 0 23 cs
  let (_, cs) ← field 2 0 59 (← mark ':' cs)
  let (_, cs) ← field 2 0 60 (← mark ':' cs)
  match cs with
  | '.' :: c :: rest => if c.isDigit then return rest.dropWhile Char.isDigit else none
  | _ => return cs

def isOffset : List Char → Bool
  | [] => true
  | ['Z'] => true
  | ['z'] => true
  | c :: cs =>
    (c = '+' || c = '-') &&
      ((do
        let (_, cs) ← field 2 0 23 cs
        let (_, cs) ← field 2 0 59 (← mark ':' cs)
        return cs).any List.isEmpty)

def isTimeOfDay (cs : List Char) : Bool := (timeOfDay cs).any List.isEmpty
def isDate (cs : List Char) : Bool := (date cs).any List.isEmpty
def isTimeAndOffset (cs : List Char) : Bool := (timeOfDay cs).any isOffset

def isDateTime (cs : List Char) : Bool :=
  match date cs with
  | some (c :: cs) => (c = 'T' || c = 't') && isTimeAndOffset cs
  | some [] => true
  | none => false

def word (cs : List Char) : Option Scalar :=
  if cs = ['t', 'r', 'u', 'e'] then some (.boolean true)
  else if cs = ['f', 'a', 'l', 's', 'e'] then some (.boolean false)
  else if isDateTime cs || isTimeOfDay cs then some (.datetime (String.ofList cs))
  else float cs <|> integer cs

def isWordChar (c : Char) : Bool :=
  c.isAlphanum || c = '+' || c = '-' || c = '_' || c = '.' || c = ':'

def secondRun : List Char → List Char
  | ' ' :: cs => cs.takeWhile isWordChar
  | _ => []

def bareValue : Scan Scalar := fun cs => do
  let run := cs.takeWhile isWordChar
  let rest := cs.dropWhile isWordChar
  let second := secondRun rest
  if isDate run && !second.isEmpty then
    if isTimeAndOffset second then
      return (.datetime (String.ofList (run ++ ' ' :: second)), rest.drop (second.length + 1))
    else none
  else return (← word run, rest)

end PathWatch.Toml
