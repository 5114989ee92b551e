import PathWatch.Number.Rounding

/-!
Binary floating point with 53 significant digits: the number nearest to a
decimal, and the shortest decimal that is read back as the same number. All
arithmetic is exact, on a whole mantissa and a power of two.
-/
namespace PathWatch.Number

/-- A finite number is `mantissa * 2 ^ exponent` with a sign. -/
inductive Binary64
  | nan
  | infinite (negative : Bool)
  | finite (negative : Bool) (mantissa : Nat) (exponent : Int)
deriving DecidableEq, Repr, Inhabited

namespace Binary64

def leastExponent : Int := -1074
def greatestExponent : Int := 971

def scaled (base num den : Nat) (e : Int) : Nat × Nat :=
  match e with
  | .ofNat k => (num, den * base.pow k)
  | .negSucc k => (num * base.pow (k + 1), den)

/-- The exponent that leaves 53 digits before the point, or the least one. -/
def exponentOf (num den : Nat) : Int :=
  let e : Int := num.log2 - den.log2 - 52
  let (a, b) := scaled 2 num den e
  let e := if a < b <<< 52 then e - 1 else if b <<< 53 ≤ a then e + 1 else e
  max e leastExponent

def ofQuotient (negative : Bool) (num den : Nat) : Binary64 :=
  if num = 0 then .finite negative 0 leastExponent
  else
    let e := exponentOf num den
    let (a, b) := scaled 2 num den e
    let m := halfEven a b
    let (m, e) := if m = 1 <<< 53 then (1 <<< 52, e + 1) else (m, e)
    if greatestExponent < e then .infinite negative else .finite negative m e

/-- `digits * 10 ^ power`; a number far outside the range is not computed. -/
def ofDecimal (negative : Bool) (digits : Nat) (power : Int) : Binary64 :=
  let size : Int := (toString digits).length + power
  if digits = 0 || size < -400 then .finite negative 0 leastExponent
  else if 400 < size then .infinite negative
  else
    match power with
    | .ofNat k => ofQuotient negative (digits * Nat.pow 10 k) 1
    | .negSucc k => ofQuotient negative digits (Nat.pow 10 (k + 1))

def decimalExponent (num den : Nat) : Int :=
  let k : Int := ((num.log2 : Int) - den.log2) * 30103 / 100000
  let reaches (k : Int) : Bool := let (a, b) := scaled 10 num den k; b ≤ a
  if reaches (k + 1) then k + 1 else if reaches k then k else k - 1

/-- Four times the mantissa, and how far, in quarters of its last place, other
numbers stay away below and above. -/
def margins (m : Nat) (e : Int) : Nat × Nat × Nat :=
  (4 * m, if m = 1 <<< 52 && leastExponent < e then 1 else 2, 2)

/-- The multiple of `10 ^ k` nearest to the number, the greater of two that are
equally near, if it is read back as it. -/
def onGrid? (m : Nat) (e k : Int) : Option Nat :=
  let (center, below, above) := margins m e
  let (unitN, unitD) := scaled 2 1 4 (-e)
  let (num, den) := scaled 10 (center * unitN) unitD k
  let low := num / den
  let fits (d : Nat) : Bool :=
    let lo := (scaled 10 ((center - below) * unitN) unitD k).1
    let hi := (scaled 10 ((center + above) * unitN) unitD k).1
    if m % 2 = 0 then decide (lo ≤ d * den) && decide (d * den ≤ hi)
    else decide (lo < d * den) && decide (d * den < hi)
  let nearest := halfUp num den
  let other := if nearest = low then low + 1 else low
  if fits nearest then some nearest else if fits other then some other else none

def firstOnGrid (m : Nat) (e : Int) : Nat → Int → Nat × Int
  | 0, k => ((onGrid? m e k).getD 0, k)
  | fuel + 1, k =>
    match onGrid? m e k with
    | some d => (d, k)
    | none => firstOnGrid m e fuel (k - 1)

/-- Digits and a power of ten; 17 digits are always enough. The first grid is
that of the power of ten above the number, which may itself be read back as it. -/
def shortest (m : Nat) (e : Int) : Nat × Int :=
  let (num, den) := scaled 2 m 1 (-e)
  firstOnGrid m e 17 (decimalExponent num den + 1)

def positional (digits : Nat) (power : Int) : String :=
  match power with
  | .ofNat k => toString (digits * Nat.pow 10 k) ++ ".0"
  | .negSucc k =>
    let scale := Nat.pow 10 (k + 1)
    s!"{digits / scale}.{padded (k + 1) (digits % scale)}"

def text : Binary64 → String
  | .nan => "NaN"
  | .infinite negative => if negative then "-inf" else "inf"
  | .finite negative m e =>
    let sign := if negative then "-" else ""
    if m = 0 then sign ++ "0.0"
    else
      let (digits, power) := shortest m e
      sign ++ positional digits power

end Binary64

end PathWatch.Number
