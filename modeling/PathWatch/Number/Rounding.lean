/-!
Rounding of natural numbers and of quotients to the nearest, where a tie goes
to the even neighbour or to the greater one.
-/
namespace PathWatch.Number

def halfEven (num den : Nat) : Nat :=
  let q := num / den
  let r := num % den
  if 2 * r < den then q
  else if den < 2 * r then q + 1
  else q + q % 2

/-- The whole number nearest to `num / den`, a tie going to the greater. -/
def halfUp (num den : Nat) : Nat :=
  let q := num / den
  if 2 * (num % den) < den then q else q + 1

def toSignificant (bits n : Nat) : Nat :=
  if n < 1 <<< bits then n
  else
    let step := 1 <<< (n.log2 + 1 - bits)
    halfEven n step * step

theorem halfEven_near (num den : Nat) (h : 0 < den) :
    2 * num ≤ 2 * (den * halfEven num den) + den ∧
      2 * (den * halfEven num den) ≤ 2 * num + den := by
  have e := Nat.div_add_mod num den
  have r := Nat.mod_lt num h
  generalize hq : num / den = q at e
  unfold halfEven
  simp only [hq]
  generalize num % den = m at e r ⊢
  split
  · omega
  · split
    · rw [Nat.mul_add]; omega
    · rcases Nat.mod_two_eq_zero_or_one q with z | z <;> rw [z, Nat.mul_add] <;> omega

theorem toSignificant_of_lt {bits n : Nat} (h : n < 1 <<< bits) : toSignificant bits n = n := by
  simp [toSignificant, h]

def padded (width n : Nat) : String :=
  let digits := toString n
  String.ofList (List.replicate (width - digits.length) '0') ++ digits

end PathWatch.Number
