import Mathlib
import PathWatch.Format.Calendar

/-! The calendar by its rules alone, and that the moment of a time is the valid one that names
the time. -/
namespace PathWatch.Calendar

open Finset

def Leap (year : Int) : Prop := 4 ∣ year ∧ (100 ∣ year → 400 ∣ year)

instance (year : Int) : Decidable (Leap year) := inferInstanceAs (Decidable (_ ∧ _))

def daysIn (year : Int) : Nat → Nat
  | 2 => if Leap year then 29 else 28
  | 4 | 6 | 9 | 11 => 30
  | _ => 31

def daysBeforeMonth (year : Int) (month : Nat) : Nat := ∑ k ∈ range (month - 1), daysIn year (k + 1)

def yearLength (year : Int) : Nat := daysBeforeMonth year 13

/-- Days from the first of January 1970 to the first one of the year, counted year by year. -/
def yearStart (year : Int) : Int :=
  ∑ k ∈ range (year - 1970).toNat, (yearLength (1970 + k) : Int) -
    ∑ k ∈ range (1970 - year).toNat, (yearLength (1969 - k) : Int)

namespace Moment

structure Valid (m : Moment) : Prop where
  month : 1 ≤ m.month ∧ m.month ≤ 12
  day : 1 ≤ m.day ∧ m.day ≤ daysIn m.year m.month
  hour : m.hour < 24
  minute : m.minute < 60
  second : m.second < 60
  nanosecond : m.nanosecond < 1000000000

def dayNumber (m : Moment) : Int :=
  yearStart m.year + daysBeforeMonth m.year m.month + (m.day - 1)

def secondOfDay (m : Moment) : Nat := (m.hour * 60 + m.minute) * 60 + m.second

def instant (m : Moment) : Time :=
  ⟨(m.dayNumber * 86400 + m.secondOfDay) * 1000000000 + m.nanosecond⟩

end Moment

theorem isLeap_iff (year : Int) : isLeap year = true ↔ Leap year := by
  simp only [isLeap, Leap, Bool.and_eq_true, Bool.or_eq_true, beq_iff_eq, bne_iff_ne]
  omega

theorem monthLengths_isLeap (year : Int) :
    monthLengths (isLeap year) = (List.range 12).map fun k => daysIn year (k + 1) := by
  by_cases leap : Leap year
  · rw [(isLeap_iff year).2 leap]
    simp [monthLengths, List.range_succ, daysIn, leap]
  · rw [Bool.eq_false_iff.2 (mt (isLeap_iff year).1 leap)]
    simp [monthLengths, List.range_succ, daysIn, leap]

theorem yearLength_eq (year : Int) : yearLength year = if Leap year then 366 else 365 := by
  by_cases leap : Leap year <;>
    simp [yearLength, daysBeforeMonth, sum_range_succ, daysIn, leap]

theorem daysBefore_succ (year : Int) :
    daysBefore (year + 1) = daysBefore year + yearLength year := by
  rw [yearLength_eq]
  by_cases leap : Leap year
  · rw [if_pos leap]
    simp only [daysBefore, Leap] at *
    omega
  · rw [if_neg leap]
    simp only [daysBefore, Leap] at *
    omega

theorem daysBefore_eq (year : Int) : daysBefore year = epochDay + yearStart year := by
  -- The sums count away from 1970 on both sides, so there is one induction for each.
  have later (n : Nat) :
      daysBefore (1970 + n) = epochDay + ∑ k ∈ range n, (yearLength (1970 + k) : Int) := by
    induction n with
    | zero => rfl
    | succ n ih =>
      rw [sum_range_succ, Int.natCast_add, Int.natCast_one, ← add_assoc, ← add_assoc,
        daysBefore_succ, ih]
  have earlier (n : Nat) :
      daysBefore (1970 - n) = epochDay - ∑ k ∈ range n, (yearLength (1969 - k) : Int) := by
    induction n with
    | zero => rfl
    | succ n ih =>
      have step := daysBefore_succ (1969 - n)
      have next : (1969 - n + 1 : Int) = 1970 - n := by omega
      have last : (1970 - (n + 1 : Nat) : Int) = 1969 - n := by omega
      rw [next, ih] at step
      rw [sum_range_succ, last]
      omega
  rcases le_total 1970 year with h | h
  · have forward : (1970 + (year - 1970).toNat : Int) = year := by omega
    have none : (1970 - year).toNat = 0 := by omega
    rw [yearStart, none, range_zero, sum_empty, sub_zero, ← later, forward]
  · have backward : (1970 - (1970 - year).toNat : Int) = year := by omega
    have none : (year - 1970).toNat = 0 := by omega
    rw [yearStart, none, range_zero, sum_empty, zero_sub, ← sub_eq_add_neg, ← earlier, backward]

theorem yearOfDay_spec (day : Int) :
    daysBefore (yearOfDay day) ≤ day ∧ day < daysBefore (yearOfDay day + 1) := by
  -- In 400 years there are 146097 days; a year begins within two days of its share of them.
  have bounds (year : Int) :
      146097 * year - 396 ≤ 400 * daysBefore year ∧ 400 * daysBefore year ≤ 146097 * year + 699 := by
    unfold daysBefore
    omega
  have low := bounds (400 * day / 146097 - 1)
  have high := bounds (400 * day / 146097 + 1 + 1)
  simp only [yearOfDay]
  split
  case isTrue before =>
    have next : (400 * day / 146097 - 1 + 1 : Int) = 400 * day / 146097 := by omega
    rw [next]
    omega
  case isFalse =>
    split
    · omega
    · omega

theorem monthAndDay_spec {lengths : List Nat} {day : Nat} (within : day < lengths.sum)
    (first : Nat) :
    ∃ i length d, lengths[i]? = some length ∧ d < length ∧ day = (lengths.take i).sum + d ∧
      monthAndDay first lengths day = (first + i, d + 1) := by
  induction lengths generalizing first day with
  | nil => exact absurd within (Nat.not_lt_zero day)
  | cons length rest ih =>
    rw [monthAndDay]
    split
    case isTrue here => exact ⟨0, length, day, rfl, here, by simp, rfl⟩
    case isFalse later =>
      rw [List.sum_cons] at within
      have within : day - length < rest.sum := by omega
      obtain ⟨i, l, d, found, small, split, told⟩ := ih within (first + 1)
      refine ⟨i + 1, l, d, found, small, ?_, by rw [told]; congr 1; omega⟩
      rw [List.take_succ_cons, List.sum_cons]
      omega

theorem daysBeforeMonth_succ (year : Int) (i : Nat) :
    daysBeforeMonth year (i + 1) = ((List.range i).map fun k => daysIn year (k + 1)).sum := rfl

theorem monthAndDay_monthLengths {year : Int} {day : Nat} (within : day < yearLength year) :
    ∃ i d, i < 12 ∧ d < daysIn year (i + 1) ∧ day = daysBeforeMonth year (i + 1) + d ∧
      monthAndDay 1 (monthLengths (isLeap year)) day = (i + 1, d + 1) := by
  rw [yearLength, daysBeforeMonth_succ, ← monthLengths_isLeap] at within
  obtain ⟨i, length, d, found, small, split, told⟩ := monthAndDay_spec within 1
  rw [monthLengths_isLeap, List.getElem?_map, Option.map_eq_some_iff] at found
  obtain ⟨k, found, rfl⟩ := found
  obtain ⟨inYear, rfl⟩ := List.getElem?_eq_some_iff.1 found
  rw [List.getElem_range] at small
  rw [List.length_range] at inYear
  refine ⟨i, d, inYear, small, ?_, by rw [told, Nat.add_comm]⟩
  rw [split, monthLengths_isLeap, ← List.map_take, List.take_range, Nat.min_eq_left inYear.le,
    daysBeforeMonth_succ]

theorem date_of_day (day : Int) :
    ∃ i d, i < 12 ∧ d < daysIn (yearOfDay day) (i + 1) ∧
      day = epochDay + yearStart (yearOfDay day) + daysBeforeMonth (yearOfDay day) (i + 1) + d ∧
      monthAndDay 1 (monthLengths (isLeap (yearOfDay day)))
        (day - daysBefore (yearOfDay day)).toNat = (i + 1, d + 1) := by
  obtain ⟨begun, unfinished⟩ := yearOfDay_spec day
  rw [daysBefore_succ] at unfinished
  have within : (day - daysBefore (yearOfDay day)).toNat < yearLength (yearOfDay day) := by omega
  obtain ⟨i, d, month, small, split, told⟩ := monthAndDay_monthLengths within
  rw [daysBefore_eq] at begun split
  exact ⟨i, d, month, small, by omega, told⟩

namespace Moment

theorem ofTime_eq (t : Time) :
    let seconds := t.nanos / 1000000000
    let rest := (seconds % 86400).toNat
    ∃ year i d, i < 12 ∧ d < daysIn year (i + 1) ∧
      seconds / 86400 = yearStart year + daysBeforeMonth year (i + 1) + d ∧
      ofTime t =
        { year, month := i + 1, day := d + 1
          hour := rest / 3600
          minute := rest / 60 % 60
          second := rest % 60
          nanosecond := (t.nanos % 1000000000).toNat } := by
  intro seconds rest
  have whole : t.seconds = seconds := Int.fdiv_eq_ediv_of_nonneg _ (by decide)
  have days : seconds.fdiv 86400 = seconds / 86400 := Int.fdiv_eq_ediv_of_nonneg _ (by decide)
  have part : seconds.fmod 86400 = seconds % 86400 := Int.fmod_eq_emod_of_nonneg _ (by decide)
  have subsecond : t.subsecond = (t.nanos % 1000000000).toNat :=
    congrArg Int.toNat (Int.fmod_eq_emod_of_nonneg _ (by decide))
  obtain ⟨i, d, month, small, split, told⟩ := date_of_day (seconds / 86400 + epochDay)
  refine ⟨_, i, d, month, small, by omega, ?_⟩
  simp only [ofTime, whole, days, part, told, subsecond]
  rfl

theorem valid_ofTime (t : Time) : (ofTime t).Valid := by
  obtain ⟨year, i, d, month, day, _, same⟩ := ofTime_eq t
  rw [same]
  exact
    { month := ⟨Nat.le_add_left 1 i, month⟩
      day := ⟨Nat.le_add_left 1 d, day⟩
      hour := by dsimp only; omega
      minute := by dsimp only; omega
      second := by dsimp only; omega
      nanosecond := by dsimp only; omega }

theorem instant_ofTime (t : Time) : (ofTime t).instant = t := by
  obtain ⟨year, i, d, _, _, days, same⟩ := ofTime_eq t
  rw [same]
  simp only [instant, dayNumber, secondOfDay]
  refine congrArg Time.mk (?_ : _ = t.nanos)
  omega

end Moment

end PathWatch.Calendar
