import PathWatch.Number.Rounding
import PathWatch.Time

/-!
A length of time in the largest unit that makes it at least one, with as many
decimal places as it needs.
-/
namespace PathWatch.Format

def trimZeros (digits : String) : String :=
  String.ofList (digits.toList.reverse.dropWhile (· = '0')).reverse

/-- `part` counts units of `10 ^ -places`. -/
def withFraction (whole part places : Nat) : String :=
  if part = 0 then toString whole
  else s!"{whole}.{trimZeros (Number.padded places part)}"

def span (d : Duration) : String :=
  let n := d.nanos
  if 1000000000 ≤ n then withFraction (n / 1000000000) (n % 1000000000) 9 ++ "s"
  else if 1000000 ≤ n then withFraction (n / 1000000) (n % 1000000) 6 ++ "ms"
  else if 1000 ≤ n then withFraction (n / 1000) (n % 1000) 3 ++ "µs"
  else s!"{n}ns"

end PathWatch.Format
