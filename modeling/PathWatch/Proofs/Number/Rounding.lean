import Mathlib.Data.Nat.Dist
import Mathlib.Tactic.Ring
import PathWatch.Number.Rounding

/-! Rounding takes a number to the nearest of those that can be had, and so keeps the order of
numbers, whatever becomes of ties. -/
namespace PathWatch.Number

structure IsNearest (CanBe : Nat → Prop) (n r : Nat) : Prop where
  canBe : CanBe r
  least : ∀ k, CanBe k → Nat.dist n r ≤ Nat.dist n k

def FitsIn (bits n : Nat) : Prop := ∃ m e, m < 2 ^ bits ∧ n = m * 2 ^ e

/-- The nearest number with `bits` binary digits; of two, the one that a digit less can hold. -/
structure IsRounded (bits n r : Nat) : Prop extends IsNearest (FitsIn bits) n r where
  tie : ∀ k, FitsIn bits k → k ≠ r → Nat.dist n k = Nat.dist n r → FitsIn (bits - 1) r

namespace IsNearest

variable {CanBe : Nat → Prop} {n m r s k : Nat}

theorem mono (hr : IsNearest CanBe n r) (hs : IsNearest CanBe m s) (h : n < m) : r ≤ s := by
  have first := hr.least s hs.canBe
  have second := hs.least r hr.canBe
  simp only [Nat.dist] at first second
  omega

theorem le (hr : IsNearest CanBe n r) (hk : CanBe k) (h : n ≤ k) : r ≤ k := by
  have near := hr.least k hk
  simp only [Nat.dist] at near
  omega

end IsNearest

section

variable {num den : Nat}

theorem dist_halfEven_le (num : Nat) (pos : 0 < den) :
    2 * Nat.dist num (den * halfEven num den) ≤ den := by
  have near := halfEven_near num den pos
  simp only [Nat.dist]
  omega

theorem le_dist_of_dvd {j k : Nat} (hj : den ∣ j) (hk : den ∣ k) (other : j ≠ k) :
    den ≤ Nat.dist j k := by
  have multiple : den ∣ Nat.dist j k := Nat.dvd_add (Nat.dvd_sub hj hk) (Nat.dvd_sub hk hj)
  exact Nat.le_of_dvd (Nat.dist_pos_of_ne other) multiple

theorem halfEven_nearest (num : Nat) (pos : 0 < den) :
    IsNearest (den ∣ ·) num (den * halfEven num den) := by
  refine ⟨Nat.dvd_mul_right den _, fun k multiple => ?_⟩
  by_cases same : k = den * halfEven num den
  · rw [same]
  · have near := dist_halfEven_le num pos
    have apart := le_dist_of_dvd multiple (Nat.dvd_mul_right den _) same
    have around := Nat.dist.triangle_inequality k num (den * halfEven num den)
    rw [Nat.dist_comm k num] at around
    omega

theorem halfEven_mono {num' : Nat} (pos : 0 < den) (h : num ≤ num') :
    halfEven num den ≤ halfEven num' den := by
  rcases Nat.eq_or_lt_of_le h with rfl | h
  · exact Nat.le_refl _
  · exact Nat.le_of_mul_le_mul_left
      ((halfEven_nearest num pos).mono (halfEven_nearest num' pos) h) pos

theorem even_halfEven (pos : 0 < den) (half : 2 * Nat.dist num (den * halfEven num den) = den) :
    Even (halfEven num den) := by
  have parts := Nat.div_add_mod num den
  have small := Nat.mod_lt num pos
  unfold halfEven at half ⊢
  generalize num / den = q at parts half ⊢
  generalize num % den = r at parts small half ⊢
  dsimp only [Nat.dist] at half ⊢
  split_ifs at half ⊢ with low high
  · omega
  · rw [Nat.mul_succ] at half
    omega
  · exact Nat.even_iff.2 (by omega)

theorem even_of_tie {k : Nat} (pos : 0 < den) (multiple : den ∣ k)
    (other : k ≠ den * halfEven num den)
    (tie : Nat.dist num k = Nat.dist num (den * halfEven num den)) : Even (halfEven num den) := by
  have near := dist_halfEven_le num pos
  have apart := le_dist_of_dvd multiple (Nat.dvd_mul_right den _) other
  have around := Nat.dist.triangle_inequality k num (den * halfEven num den)
  rw [Nat.dist_comm k num] at around
  exact even_halfEven pos (by omega)

end

section

variable {bits n e : Nat}

theorem fitsIn_mul {m : Nat} (positive : 0 < bits) (h : m ≤ 2 ^ bits) (e : Nat) :
    FitsIn bits (m * 2 ^ e) := by
  rcases Nat.eq_or_lt_of_le h with rfl | small
  · exact ⟨1, bits + e, Nat.one_lt_two_pow (by omega), by rw [Nat.pow_add, Nat.one_mul]⟩
  · exact ⟨m, e, small, rfl⟩

theorem lt_of_not_dvd {k : Nat} (fits : FitsIn bits k) (between : ¬ 2 ^ (e + 1) ∣ k) :
    k < 2 ^ (bits + e) := by
  obtain ⟨m, f, small, rfl⟩ := fits
  have finer : f ≤ e := by
    by_contra coarse
    exact between ((Nat.pow_dvd_pow 2 (by omega)).trans (Nat.dvd_mul_left _ m))
  calc m * 2 ^ f < 2 ^ bits * 2 ^ f := Nat.mul_lt_mul_of_pos_right small (Nat.two_pow_pos f)
    _ ≤ 2 ^ bits * 2 ^ e := Nat.mul_le_mul_left _ (Nat.pow_le_pow_right (by decide) finer)
    _ = 2 ^ (bits + e) := (Nat.pow_add 2 bits e).symm

theorem rounded_self (short : n < 2 ^ bits) : IsRounded bits n n where
  canBe := ⟨n, 0, short, by simp⟩
  least k _ := by simp [Nat.dist_self]
  tie k _ other same := by
    rw [Nat.dist_self] at same
    exact absurd (Nat.eq_of_dist_eq_zero same).symm other

section

variable (several : 1 < bits) (below : 2 ^ (bits + e) ≤ n)
include several below

/-- The numbers that fit between multiples of the step lie all below a power of two that is one of
the multiples itself and nearer to `n`. -/
theorem dist_lt_of_not_dvd {k : Nat} (fits : FitsIn bits k) (between : ¬ 2 ^ (e + 1) ∣ k) :
    Nat.dist n (2 ^ (e + 1) * halfEven n (2 ^ (e + 1))) < Nat.dist n k := by
  have bottom : 2 ^ (e + 1) ∣ 2 ^ (bits + e) := Nat.pow_dvd_pow 2 (by omega)
  have least := (halfEven_nearest n (Nat.two_pow_pos (e + 1))).least _ bottom
  have small := lt_of_not_dvd fits between
  simp only [Nat.dist] at least ⊢
  omega

theorem rounded_of_step (above : n < 2 ^ (bits + (e + 1))) :
    IsRounded bits n (2 ^ (e + 1) * halfEven n (2 ^ (e + 1))) := by
  have pos : 0 < 2 ^ (e + 1) := Nat.two_pow_pos _
  have near := halfEven_nearest n pos
  have most : halfEven n (2 ^ (e + 1)) ≤ 2 ^ bits := by
    refine Nat.le_of_mul_le_mul_left (near.le (Nat.dvd_mul_right _ _) ?_) pos
    rw [← Nat.pow_add, Nat.add_comm (e + 1)]
    exact above.le
  refine ⟨⟨?_, fun k fits => ?_⟩, fun k fits other same => ?_⟩
  · rw [Nat.mul_comm]
    exact fitsIn_mul (by omega) most _
  · by_cases multiple : 2 ^ (e + 1) ∣ k
    · exact near.least k multiple
    · exact (dist_lt_of_not_dvd several below fits multiple).le
  · have multiple : 2 ^ (e + 1) ∣ k := by
      by_contra between
      exact absurd same (dist_lt_of_not_dvd several below fits between).ne'
    obtain ⟨half, double⟩ := even_of_tie pos multiple other same
    rw [double] at most ⊢
    have split : 2 ^ (e + 1) * (half + half) = half * 2 ^ (e + 2) := by ring
    have digit : 2 ^ bits = 2 ^ (bits - 1) * 2 := by
      rw [← Nat.pow_succ, Nat.succ_eq_add_one, Nat.sub_add_cancel (by omega)]
    rw [split]
    exact fitsIn_mul (by omega) (by omega) _

end

theorem toSignificant_rounded (several : 1 < bits) (n : Nat) :
    IsRounded bits n (toSignificant bits n) := by
  unfold toSignificant
  rw [Nat.one_shiftLeft, Nat.one_shiftLeft]
  split
  case isTrue short => exact rounded_self short
  case isFalse long =>
    have long : 2 ^ bits ≤ n := Nat.le_of_not_lt long
    have nonzero : n ≠ 0 := ((Nat.two_pow_pos bits).trans_le long).ne'
    have digits : bits < n.log2 + 1 :=
      (Nat.pow_lt_pow_iff_right (by decide)).1 (long.trans_lt Nat.lt_log2_self)
    obtain ⟨e, last⟩ : ∃ e, n.log2 = bits + e := ⟨n.log2 - bits, by omega⟩
    have below : 2 ^ (bits + e) ≤ n := last ▸ Nat.log2_self_le nonzero
    have above : n < 2 ^ (bits + e + 1) := last ▸ Nat.lt_log2_self
    rw [last, Nat.add_assoc, Nat.add_sub_cancel_left, Nat.mul_comm]
    exact rounded_of_step several below above

theorem toSignificant_mono {m : Nat} (several : 1 < bits) (h : n ≤ m) :
    toSignificant bits n ≤ toSignificant bits m := by
  rcases Nat.eq_or_lt_of_le h with rfl | h
  · exact Nat.le_refl _
  · exact (toSignificant_rounded several n).mono (toSignificant_rounded several m).toIsNearest h

end

end PathWatch.Number
