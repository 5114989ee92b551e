import PathWatch.Number.Rounding

/-!
Sizes as people read them: plain bytes below 1024, and from there two decimal
places of the largest unit that is not too large. A size is first rounded to
53 significant binary digits.
-/
namespace PathWatch.Format

structure ByteUnit where
  bytes : Nat
  symbol : String
deriving Repr

def kilobyte : ByteUnit := ⟨1 <<< 10, "KB"⟩
def megabyte : ByteUnit := ⟨1 <<< 20, "MB"⟩
def gigabyte : ByteUnit := ⟨1 <<< 30, "GB"⟩

def byteUnit? (n : Nat) : Option ByteUnit :=
  if gigabyte.bytes ≤ n then some gigabyte
  else if megabyte.bytes ≤ n then some megabyte
  else if kilobyte.bytes ≤ n then some kilobyte
  else none

def ByteUnit.hundredths (u : ByteUnit) (n : Nat) : Nat :=
  Number.halfEven (100 * Number.toSignificant 53 n) u.bytes

def hundredthsText (h : Nat) : String := s!"{h / 100}.{Number.padded 2 (h % 100)}"

def byteSize (n : Nat) : String :=
  match byteUnit? n with
  | none => s!"{n} B"
  | some u => s!"{hundredthsText (u.hundredths n)} {u.symbol}"

end PathWatch.Format
