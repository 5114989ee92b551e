import PathWatch.Format.Bytes
import PathWatch.Proofs.Format.Reading
import PathWatch.Proofs.Number.Rounding

/-! Reading sizes back: what is shown lies as near to the size as two decimal places of its unit
allow, and sizes are shown in their order, whatever units they are shown in. -/
namespace PathWatch.Format

open Toml (Scan)
open Calendar.Read (number whole)
open Number (IsRounded toSignificant)

structure Size where
  hundredths : Nat
  unit : Nat

def Size.shown (s : Size) : Nat := s.hundredths * s.unit

def units : List ByteUnit := [⟨2 ^ 10, "KB"⟩, ⟨2 ^ 20, "MB"⟩, ⟨2 ^ 30, "GB"⟩]

structure ByteUnit.IsUnitOf (u : ByteUnit) (n : Nat) : Prop where
  listed : u ∈ units
  reached : u.bytes ≤ n
  largest : ∀ v ∈ units, v.bytes ≤ n → v.bytes ≤ u.bytes

namespace Read

def digits : Scan Nat := do
  let digits ← Scan.span Char.isDigit
  return Nat.ofDigitChars 10 digits 0

def unit : Scan Nat := do
  if ← Scan.taken "KB".toList then return 2 ^ 10
  if ← Scan.taken "MB".toList then return 2 ^ 20
  Scan.exactly "GB".toList
  return 2 ^ 30

def decimal (n : Nat) : Scan Size := do
  let part ← number 2
  Scan.exactly [' ']
  let bytes ← unit
  return ⟨100 * n + part, bytes⟩

def plain (n : Nat) : Scan Size := do
  Scan.exactly " B".toList
  return ⟨100 * n, 1⟩

def amount (n : Nat) : Scan Size
  | '.' :: cs => decimal n cs
  | cs => plain n cs

def size : Scan Size := do
  let n ← digits
  amount n

theorem digits_toString (n : Nat) {stop : Char} (other : stop.isDigit = false) (rest : List Char) :
    digits ((toString n).toList ++ stop :: rest) = some (n, stop :: rest) := by
  have text : (toString n).toList = Nat.toDigits 10 n := by
    rw [Nat.toString_eq_ofList_toDigits, String.toList_ofList]
  have all : ∀ c ∈ Nat.toDigits 10 n, c.isDigit = true :=
    fun c hc => Nat.isDigit_of_mem_toDigits (by decide) (by decide) hc
  rw [text]
  refine (Scan.bind_of_eq (Scan.span_of_digits all other)).trans ?_
  rw [Nat.ofDigitChars_ten_toDigits]
  rfl

theorem reads_unit {u : ByteUnit} (h : u ∈ units) : unit.Reads u.symbol.toList u.bytes := by
  simp only [units, List.mem_cons, List.not_mem_nil, or_false] at h
  intro rest
  rcases h with rfl | rfl | rfl <;> rfl

theorem reads_decimal {u : ByteUnit} (h : u ∈ units) (n : Nat) {part : Nat} (small : part < 100) :
    (decimal n).Reads ((Number.padded 2 part).toList ++ ([' '] ++ (u.symbol.toList ++ [])))
      ⟨100 * n + part, u.bytes⟩ := by
  refine (Calendar.Read.reads_number (by decide) small).bind ?_
  exact (Scan.reads_exactly _).bind ((reads_unit h).bind .pure)

theorem whole_plain (n : Nat) : whole size s!"{n} B" = some ⟨100 * n, 1⟩ := by
  have split : s!"{n} B".toList = (toString n).toList ++ ' ' :: ['B'] := by simp [toString]
  have read : size ((toString n).toList ++ ' ' :: ['B']) = some (⟨100 * n, 1⟩, []) :=
    Scan.bind_of_eq (digits_toString n rfl _)
  rw [whole, split, read]

theorem whole_decimal {u : ByteUnit} (listed : u ∈ units) (h : Nat) :
    whole size s!"{hundredthsText h} {u.symbol}" = some ⟨h, u.bytes⟩ := by
  have split : s!"{hundredthsText h} {u.symbol}".toList = (toString (h / 100)).toList ++
      '.' :: ((Number.padded 2 (h % 100)).toList ++ ([' '] ++ (u.symbol.toList ++ []))) := by
    simp [hundredthsText, toString]
  have rest := reads_decimal listed (h / 100) (Nat.mod_lt h (by decide)) []
  rw [Nat.div_add_mod, List.append_nil] at rest
  have read : size ((toString (h / 100)).toList ++
      '.' :: ((Number.padded 2 (h % 100)).toList ++ ([' '] ++ (u.symbol.toList ++ [])))) =
        some (⟨h, u.bytes⟩, []) :=
    (Scan.bind_of_eq (digits_toString (h / 100) rfl _)).trans rest
  rw [whole, split, read]

end Read

section

variable {n m : Nat} {u v : ByteUnit}

theorem byteUnit?_eq (n : Nat) : byteUnit? n =
    if 2 ^ 30 ≤ n then some ⟨2 ^ 30, "GB"⟩ else if 2 ^ 20 ≤ n then some ⟨2 ^ 20, "MB"⟩
    else if 2 ^ 10 ≤ n then some ⟨2 ^ 10, "KB"⟩ else none :=
  rfl

theorem ByteUnit.isUnitOf_iff : u.IsUnitOf n ↔ u.bytes ≤ n ∧
    (u = ⟨2 ^ 10, "KB"⟩ ∧ n < 2 ^ 20 ∨ u = ⟨2 ^ 20, "MB"⟩ ∧ n < 2 ^ 30 ∨ u = ⟨2 ^ 30, "GB"⟩) := by
  constructor
  · intro unit
    obtain ⟨listed, reached, largest⟩ := unit
    simp only [units, List.mem_cons, List.not_mem_nil, or_false] at listed
    simp only [units, List.forall_mem_cons] at largest
    refine ⟨reached, ?_⟩
    rcases listed with rfl | rfl | rfl <;> dsimp only at largest
    · exact .inl ⟨rfl, by omega⟩
    · exact .inr (.inl ⟨rfl, by omega⟩)
    · exact .inr (.inr rfl)
  · intro unit
    obtain ⟨reached, ⟨rfl, small⟩ | ⟨rfl, small⟩ | rfl⟩ := unit
    all_goals
      refine ⟨by simp [units], reached, ?_⟩
      simp only [units, List.forall_mem_cons]
      grind

theorem byteUnit?_eq_none_iff : byteUnit? n = none ↔ n < 1024 := by
  rw [byteUnit?_eq]
  split_ifs <;> simp <;> omega

theorem byteUnit?_eq_some_iff : byteUnit? n = some u ↔ u.IsUnitOf n := by
  rw [byteUnit?_eq, ByteUnit.isUnitOf_iff]
  split_ifs <;> grind

theorem ByteUnit.IsUnitOf.of_le (unit : u.IsUnitOf m) (reached : u.bytes ≤ n) (h : n ≤ m) :
    u.IsUnitOf n :=
  ⟨unit.listed, reached, fun v listed below => unit.largest v listed (below.trans h)⟩

theorem pos_of_listed : ∀ u ∈ units, 0 < u.bytes := by decide

theorem hundredths_bytes : ∀ u ∈ units, ∀ v ∈ units, u.bytes ≤ v.bytes →
    u.hundredths v.bytes * u.bytes = 100 * v.bytes := by
  decide

theorem ByteUnit.hundredths_mono (listed : u ∈ units) (h : n ≤ m) :
    u.hundredths n * u.bytes ≤ u.hundredths m * u.bytes := by
  refine Nat.mul_le_mul_right _ (Number.halfEven_mono (pos_of_listed u listed) ?_)
  exact Nat.mul_le_mul_left 100 (Number.toSignificant_mono (by decide) h)

def shownSize (n : Nat) : Size :=
  match byteUnit? n with
  | none => ⟨100 * n, 1⟩
  | some u => ⟨u.hundredths n, u.bytes⟩

theorem shown_of_none (h : byteUnit? n = none) : (shownSize n).shown = 100 * n := by
  rw [shownSize, h, Size.shown, Nat.mul_one]

theorem shown_of_unit (unit : u.IsUnitOf n) : (shownSize n).shown = u.hundredths n * u.bytes := by
  rw [shownSize, byteUnit?_eq_some_iff.2 unit, Size.shown]

theorem shown_le_bytes (listed : v ∈ units) (h : n < v.bytes) :
    (shownSize n).shown ≤ 100 * v.bytes := by
  cases found : byteUnit? n with
  | none =>
    rw [shown_of_none found]
    exact Nat.mul_le_mul_left 100 h.le
  | some u =>
    have unit := byteUnit?_eq_some_iff.1 found
    rw [shown_of_unit unit, ← hundredths_bytes u unit.listed v listed (unit.reached.trans h.le)]
    exact ByteUnit.hundredths_mono unit.listed h.le

theorem shown_mono (h : n ≤ m) : (shownSize n).shown ≤ (shownSize m).shown := by
  cases found : byteUnit? m with
  | none =>
    have small := byteUnit?_eq_none_iff.1 found
    rw [shown_of_none found, shown_of_none (byteUnit?_eq_none_iff.2 (h.trans_lt small))]
    exact Nat.mul_le_mul_left 100 h
  | some v =>
    have unit := byteUnit?_eq_some_iff.1 found
    rw [shown_of_unit unit]
    rcases Nat.lt_or_ge n v.bytes with small | large
    · -- The unit of `m` lies between, and it is shown as what it is.
      calc (shownSize n).shown ≤ 100 * v.bytes := shown_le_bytes unit.listed small
        _ = v.hundredths v.bytes * v.bytes :=
          (hundredths_bytes v unit.listed v unit.listed (Nat.le_refl _)).symm
        _ ≤ v.hundredths m * v.bytes := ByteUnit.hundredths_mono unit.listed unit.reached
    · rw [shown_of_unit (unit.of_le large h)]
      exact ByteUnit.hundredths_mono unit.listed h

theorem whole_byteSize (n : Nat) : whole Read.size (byteSize n) = some (shownSize n) := by
  unfold byteSize shownSize
  cases found : byteUnit? n with
  | none => exact Read.whole_plain n
  | some u => exact Read.whole_decimal (byteUnit?_eq_some_iff.1 found).listed _

theorem padded_two {k : Nat} (small : k < 100) :
    Number.padded 2 k = toString (k / 10) ++ toString (k % 10) := by
  have tens : k / 10 < 10 := by omega
  have ones : k % 10 < 10 := Nat.mod_lt k (by decide)
  rw [← String.toList_inj, Calendar.Read.toList_padded, String.toList_append,
    Nat.toString_eq_ofList_toDigits, Nat.toString_eq_ofList_toDigits, String.toList_ofList,
    String.toList_ofList, Nat.toDigits_of_lt_base tens, Nat.toDigits_of_lt_base ones]
  rcases Nat.lt_or_ge k 10 with short | long
  · rw [Nat.toDigits_of_lt_base short, Nat.div_eq_of_lt short, Nat.mod_eq_of_lt short]
    rfl
  · rw [Nat.toDigits_of_base_le (by decide) long, Nat.toDigits_of_lt_base tens]
    rfl

theorem byteSize_of_unit (unit : u.IsUnitOf n) : byteSize n =
    toString (u.hundredths n / 100) ++ "." ++ toString (u.hundredths n / 10 % 10) ++
      toString (u.hundredths n % 10) ++ " " ++ u.symbol := by
  have places : u.hundredths n % 100 < 100 := Nat.mod_lt _ (by decide)
  have tens : u.hundredths n % 100 / 10 = u.hundredths n / 10 % 10 := by omega
  have ones : u.hundredths n % 100 % 10 = u.hundredths n % 10 := by omega
  rw [byteSize, byteUnit?_eq_some_iff.2 unit]
  simp [hundredthsText, padded_two places, tens, ones, toString, String.append_assoc]

theorem ByteUnit.dist_hundredths_le (listed : u ∈ units) (n : Nat) :
    Nat.dist (u.hundredths n * u.bytes) (100 * toSignificant 53 n) ≤ u.bytes / 2 := by
  have near := Number.dist_halfEven_le (100 * toSignificant 53 n) (pos_of_listed u listed)
  rw [Nat.dist_comm, Nat.mul_comm u.bytes] at near
  rw [hundredths]
  omega

end

/-- A size below 1024 is shown as it is, and any other with two decimal places of the largest unit
that it reaches: the two places are the nearest to the size, or to what 53 binary digits can hold
of it. So a larger size is never shown as less, also where the unit changes. -/
theorem sizes_shown_near_and_in_order (n : Nat) :
    (n < 1024 → byteSize n = toString n ++ " B" ∧
      whole Read.size (byteSize n) = some ⟨100 * n, 1⟩) ∧
    (1024 ≤ n → ∃ (u : ByteUnit) (h r : Nat), u.IsUnitOf n ∧
      byteSize n = toString (h / 100) ++ "." ++ toString (h / 10 % 10) ++ toString (h % 10) ++ " " ++
        u.symbol ∧
      whole Read.size (byteSize n) = some ⟨h, u.bytes⟩ ∧
      IsRounded 53 n r ∧ (n < 2 ^ 53 → r = n) ∧
      Nat.dist (h * u.bytes) (100 * r) ≤ u.bytes / 2) ∧
    ∀ m, n ≤ m → ∃ a b, whole Read.size (byteSize n) = some a ∧
      whole Read.size (byteSize m) = some b ∧ a.shown ≤ b.shown := by
  refine ⟨fun small => ?_, fun large => ?_, fun m h => ?_⟩
  · have found := byteUnit?_eq_none_iff.2 small
    have read := whole_byteSize n
    rw [shownSize, found] at read
    refine ⟨?_, read⟩
    rw [byteSize, found]
    rfl
  · cases found : byteUnit? n with
    | none => exact absurd (byteUnit?_eq_none_iff.1 found) (Nat.not_lt.2 large)
    | some u =>
      have unit := byteUnit?_eq_some_iff.1 found
      have read := whole_byteSize n
      rw [shownSize, found] at read
      exact ⟨u, u.hundredths n, toSignificant 53 n, unit, byteSize_of_unit unit, read,
        Number.toSignificant_rounded (by decide) n,
        fun exact => Number.toSignificant_of_lt (by rwa [Nat.one_shiftLeft]),
        ByteUnit.dist_hundredths_le unit.listed n⟩
  · exact ⟨_, _, whole_byteSize n, whole_byteSize m, shown_mono h⟩

/-- The greatest number of 64 bits is shown as one more, and the last size before a megabyte as a
megabyte. -/
theorem last_before_megabyte_shown_as_one :
    byteSize 1023 = "1023 B" ∧ byteSize (2 ^ 64 - 1) = "17179869184.00 GB" ∧
      (∃ (u : ByteUnit) (h r : Nat), u.IsUnitOf (2 ^ 64 - 1) ∧
        whole Read.size (byteSize (2 ^ 64 - 1)) = some ⟨h, u.bytes⟩ ∧
        IsRounded 53 (2 ^ 64 - 1) r ∧ Nat.dist (h * u.bytes) (100 * r) ≤ u.bytes / 2) ∧
      byteSize 1048575 = "1024.00 KB" ∧ byteSize 1048576 = "1.00 MB" ∧
      ∃ a b, whole Read.size (byteSize 1048575) = some a ∧
        whole Read.size (byteSize 1048576) = some b ∧ a.shown ≤ b.shown := by
  obtain ⟨small, _⟩ := sizes_shown_near_and_in_order 1023
  obtain ⟨_, large, _⟩ := sizes_shown_near_and_in_order (2 ^ 64 - 1)
  obtain ⟨_, _, order⟩ := sizes_shown_near_and_in_order 1048575
  obtain ⟨u, h, r, unit, _, read, rounded, _, near⟩ := large (by decide)
  exact ⟨(small (by decide)).1, rfl, ⟨u, h, r, unit, read, rounded, near⟩, rfl, rfl,
    order 1048576 (by decide)⟩

end PathWatch.Format
