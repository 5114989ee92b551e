/-!
Reading bytes as UTF-8. Every longest beginning of a character that the next
byte does not continue is one ill-formed part; so is a byte that begins none.
-/
namespace PathWatch.Text

def isContinuation (b : UInt8) : Bool := 0x80 ≤ b && b ≤ 0xBF

/-- What the second byte may be after a first byte that announces two to four. -/
def secondRange (a : UInt8) : Option (UInt8 × UInt8) :=
  if 0xC2 ≤ a && a ≤ 0xDF then some (0x80, 0xBF)
  else if a = 0xE0 then some (0xA0, 0xBF)
  else if a = 0xED then some (0x80, 0x9F)
  else if 0xE1 ≤ a && a ≤ 0xEF then some (0x80, 0xBF)
  else if a = 0xF0 then some (0x90, 0xBF)
  else if 0xF1 ≤ a && a ≤ 0xF3 then some (0x80, 0xBF)
  else if a = 0xF4 then some (0x80, 0x8F)
  else none

def tailBits (b : UInt8) : Nat := b.toNat % 64

def twoBytes (a b : UInt8) : Char := Char.ofNat (a.toNat % 32 * 64 + tailBits b)

def threeBytes (a b c : UInt8) : Char :=
  Char.ofNat ((a.toNat % 16 * 64 + tailBits b) * 64 + tailBits c)

def fourBytes (a b c d : UInt8) : Char :=
  Char.ofNat (((a.toNat % 8 * 64 + tailBits b) * 64 + tailBits c) * 64 + tailBits d)

/-- The first part of some bytes: the character that it stands for, if it is
well-formed, and how many of the bytes after `a` belong to it. -/
def firstPart (a : UInt8) (rest : List UInt8) : Option Char × Nat :=
  if a < 0x80 then (some (Char.ofNat a.toNat), 0)
  else
    match secondRange a, rest with
    | some (low, high), b :: rest =>
      if b < low || high < b then (none, 0)
      else if a < 0xE0 then (some (twoBytes a b), 1)
      else
        match rest with
        | [] => (none, 1)
        | c :: rest =>
          if !isContinuation c then (none, 1)
          else if a < 0xF0 then (some (threeBytes a b c), 2)
          else
            match rest with
            | [] => (none, 2)
            | d :: _ => if isContinuation d then (some (fourBytes a b c d), 3) else (none, 2)
    | _, _ => (none, 0)

def decodeFrom : (skip : Nat) → List UInt8 → List (Option Char)
  | _, [] => []
  | skip + 1, _ :: rest => decodeFrom skip rest
  | 0, a :: rest => (firstPart a rest).1 :: decodeFrom (firstPart a rest).2 rest

def decodeUtf8 (bytes : List UInt8) : List (Option Char) := decodeFrom 0 bytes

def lossyUtf8 (bytes : List UInt8) : String :=
  String.ofList ((decodeUtf8 bytes).map fun c => c.getD '\ufffd')

def utf8? (bytes : List UInt8) : Option String :=
  (decodeUtf8 bytes).mapM id |>.map String.ofList

def utf8Bytes (text : String) : List UInt8 := text.toUTF8.toList

end PathWatch.Text
