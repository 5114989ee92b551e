import PathWatch.Proofs.Format.Gregorian
import PathWatch.Toml.Scan

/-! Reading dates and times back from what was written of them. -/
namespace PathWatch

namespace Toml.Scan

variable {α β : Type} {s : Scan α} {f : α → Scan β} {text more : List Char} {a : α} {b : β}

theorem bind_of_eq {cs rest : List Char} (h : s cs = some (a, rest)) :
    (s >>= f) cs = f a rest := by
  show (s cs).bind (fun r => f r.1 r.2) = _
  rw [h, Option.bind_some]

def Reads (s : Scan α) (text : List Char) (a : α) : Prop :=
  ∀ rest, s (text ++ rest) = some (a, rest)

theorem Reads.pure : (Pure.pure a : Scan α).Reads [] a := fun _ => rfl

theorem Reads.bind (hs : s.Reads text a) (hf : (f a).Reads more b) :
    (s >>= f).Reads (text ++ more) b := by
  intro rest
  rw [List.append_assoc, bind_of_eq (hs _), hf]

theorem reads_exactly (word : List Char) : (exactly word).Reads word () := by
  intro rest
  simp [exactly]

theorem span_of_digits {digits rest : List Char} {stop : Char}
    (all : ∀ c ∈ digits, c.isDigit = true) (other : stop.isDigit = false) :
    span Char.isDigit (digits ++ stop :: rest) = some (digits, stop :: rest) := by
  have ends : ¬ stop.isDigit = true := by simp [other]
  rw [span, List.takeWhile_append_of_pos all, List.dropWhile_append_of_pos all]
  rw [List.takeWhile_cons_of_neg ends, List.dropWhile_cons_of_neg ends, List.append_nil]

end Toml.Scan

namespace Calendar

open Toml (Scan)

/-- A moment, and how many minutes the clock that shows it is ahead. -/
structure Stamp where
  moment : Moment
  ahead : Int

def Stamp.instant (s : Stamp) : Time := ⟨s.moment.instant.nanos - s.ahead * 60000000000⟩

namespace Read

def number (width : Nat) : Scan Nat := fun cs =>
  let digits := cs.take width
  if digits.length = width ∧ digits.all Char.isDigit then
    some (Nat.ofDigitChars 10 digits 0, cs.drop width)
  else none

def digitsDash : Scan Nat := do
  let digits ← Scan.span Char.isDigit
  Scan.exactly ['-']
  return Nat.ofDigitChars 10 digits 0

def fourDash : Scan Nat := do
  let n ← number 4
  Scan.exactly ['-']
  return n

/-- Four digits, or any number of them behind a sign; a dash ends them. -/
def year : Scan Int
  | '-' :: cs => (digitsDash cs).map fun r => (-r.1, r.2)
  | '+' :: cs => (digitsDash cs).map fun r => (r.1, r.2)
  | cs => (fourDash cs).map fun r => (r.1, r.2)

def date : Scan (Int × Nat × Nat) := do
  let y ← year
  let month ← number 2
  Scan.exactly ['-']
  return (y, month, ← number 2)

def time : Scan (Nat × Nat × Nat) := do
  let hour ← number 2
  Scan.exactly [':']
  let minute ← number 2
  Scan.exactly [':']
  return (hour, minute, ← number 2)

/-- Zero behind is refused: so an unknown offset is written. -/
def offset : Scan Int := do
  let behind ← Scan.taken ['-']
  unless behind do Scan.exactly ['+']
  let hours ← number 2
  Scan.exactly [':']
  let minutes ← number 2
  if behind && hours * 60 + minutes = 0 then Scan.reject
  return (if behind then -1 else 1) * (hours * 60 + minutes)

def stamp : Scan Stamp := do
  let (year, month, day) ← date
  Scan.exactly ['T']
  let (hour, minute, second) ← time
  Scan.exactly ['.']
  let millis ← number 3
  let nanosecond := millis * 1000000
  return ⟨{ year, month, day, hour, minute, second, nanosecond }, ← offset⟩

def moment : Scan Moment := do
  let (year, month, day) ← date
  Scan.exactly [' ']
  let (hour, minute, second) ← time
  return { year, month, day, hour, minute, second, nanosecond := 0 }

def whole {α : Type} (s : Scan α) (text : String) : Option α :=
  match s text.toList with
  | some (a, []) => some a
  | _ => none

variable {α : Type} {s : Scan α} {text : String} {a : α}

theorem whole_of_reads (h : s.Reads text.toList a) : whole s text = some a := by
  have all := h []
  rw [List.append_nil] at all
  simp [whole, all]

theorem toList_padded (width n : Nat) :
    (Number.padded width n).toList =
      List.replicate (width - (Nat.toDigits 10 n).length) '0' ++ Nat.toDigits 10 n := by
  rw [Number.padded, String.toList_append, String.toList_ofList, ← String.length_toList,
    Nat.toString_eq_ofList_toDigits, String.toList_ofList]

theorem isDigit_of_mem_padded {width n : Nat} {c : Char}
    (h : c ∈ (Number.padded width n).toList) : c.isDigit = true := by
  rw [toList_padded, List.mem_append] at h
  rcases h with zero | digit
  · rw [List.eq_of_mem_replicate zero]
    rfl
  · exact Nat.isDigit_of_mem_toDigits (by decide) (by decide) digit

theorem ofDigitChars_padded (width n : Nat) :
    Nat.ofDigitChars 10 (Number.padded width n).toList 0 = n := by
  rw [toList_padded, Nat.ofDigitChars_append, Nat.ofDigitChars_replicate_zero, Nat.mul_zero,
    Nat.ofDigitChars_ten_toDigits]

theorem length_padded {width n : Nat} (positive : 0 < width) (small : n < 10 ^ width) :
    (Number.padded width n).toList.length = width := by
  have most := (Nat.length_toDigits_le_iff (by decide) positive).2 small
  rw [toList_padded, List.length_append, List.length_replicate]
  omega

theorem reads_number {width n : Nat} (positive : 0 < width) (small : n < 10 ^ width) :
    (number width).Reads (Number.padded width n).toList n := by
  intro rest
  have length := length_padded positive small
  have digits : (Number.padded width n).toList.all Char.isDigit :=
    List.all_eq_true.2 fun c => isDigit_of_mem_padded
  simp only [number, List.take_left' length, List.drop_left' length, length, digits,
    ofDigitChars_padded]
  simp

theorem reads_digitsDash (width n : Nat) :
    digitsDash.Reads ((Number.padded width n).toList ++ ['-']) n := by
  intro rest
  have span : Scan.span Char.isDigit ((Number.padded width n).toList ++ '-' :: rest) =
      some ((Number.padded width n).toList, '-' :: rest) :=
    Scan.span_of_digits (fun c => isDigit_of_mem_padded) rfl
  rw [List.append_assoc]
  refine (Scan.bind_of_eq span).trans ((Scan.bind_of_eq (Scan.reads_exactly ['-'] rest)).trans ?_)
  rw [ofDigitChars_padded]
  rfl

theorem reads_fourDash {n : Nat} (short : n ≤ 9999) :
    fourDash.Reads ((Number.padded 4 n).toList ++ (['-'] ++ [])) n :=
  (reads_number (by decide) (by omega)).bind ((Scan.reads_exactly _).bind .pure)

theorem year_of_digit {c : Char} (digit : c.isDigit = true) (cs : List Char) :
    year (c :: cs) = (fourDash (c :: cs)).map fun r => ((r.1 : Int), r.2) := by
  rw [year.eq_def]
  split
  next same => cases same; cases digit
  next same => cases same; cases digit
  next => rfl

theorem reads_year (y : Int) : year.Reads ((yearText y).toList ++ ['-']) y := by
  intro rest
  cases y with
  | negSucc n =>
    have split : (yearText (.negSucc n)).toList ++ ['-'] ++ rest =
        '-' :: (((Number.padded 4 (n + 1)).toList ++ ['-']) ++ rest) := by
      simp [yearText, toString]
    rw [split, year, reads_digitsDash]
    rfl
  | ofNat n =>
    by_cases short : n ≤ 9999
    case neg =>
      have split : (yearText (.ofNat n)).toList ++ ['-'] ++ rest =
          '+' :: (((Number.padded 4 n).toList ++ ['-']) ++ rest) := by
        simp [yearText, short, toString]
      rw [split, year, reads_digitsDash]
      rfl
    have split : (yearText (.ofNat n)).toList = (Number.padded 4 n).toList := by
      simp [yearText, short]
    -- A digit comes first, so the year is not taken for one with a sign.
    have length : (Number.padded 4 n).toList.length = 4 := length_padded (by decide) (by omega)
    obtain ⟨c, cs, first⟩ := List.exists_cons_of_length_eq_add_one length
    have digit : c.isDigit = true :=
      isDigit_of_mem_padded (first ▸ List.mem_cons_self)
    have read := reads_fourDash short rest
    rw [first] at read
    rw [split, first]
    exact (year_of_digit digit _).trans (congrArg (Option.map _) read)

theorem daysIn_le (year : Int) (month : Nat) : daysIn year month ≤ 31 := by
  unfold daysIn
  split
  · split <;> decide
  all_goals decide

theorem reads_date {m : Moment} (valid : m.Valid) :
    date.Reads (m.written Moment.date).toList (m.year, m.month, m.day) := by
  have split : (m.written Moment.date).toList = ((yearText m.year).toList ++ ['-']) ++
      ((Number.padded 2 m.month).toList ++ (['-'] ++ ((Number.padded 2 m.day).toList ++ []))) := by
    simp [Moment.written, Moment.date, Item.text]
  have month : m.month < 10 ^ 2 := by have := valid.month; omega
  have day : m.day < 10 ^ 2 := by
    have := valid.day
    have := daysIn_le m.year m.month
    omega
  rw [split]
  refine (reads_year m.year).bind ((reads_number (by decide) month).bind ?_)
  exact (Scan.reads_exactly _).bind ((reads_number (by decide) day).bind .pure)

theorem reads_timeOfDay {m : Moment} (valid : m.Valid) :
    time.Reads (m.written Moment.timeOfDay).toList (m.hour, m.minute, m.second) := by
  have split : (m.written Moment.timeOfDay).toList = (Number.padded 2 m.hour).toList ++ ([':'] ++
      ((Number.padded 2 m.minute).toList ++ ([':'] ++
        ((Number.padded 2 m.second).toList ++ [])))) := by
    simp [Moment.written, Moment.timeOfDay, Item.text]
  have hour : m.hour < 10 ^ 2 := valid.hour.trans (by decide)
  have minute : m.minute < 10 ^ 2 := valid.minute.trans (by decide)
  have second : m.second < 10 ^ 2 := valid.second.trans (by decide)
  rw [split]
  refine (reads_number (by decide) hour).bind ((Scan.reads_exactly _).bind ?_)
  refine (reads_number (by decide) minute).bind ((Scan.reads_exactly _).bind ?_)
  exact (reads_number (by decide) second).bind .pure

theorem reads_offset : offset.Reads (offsetText false 0).toList 0 := by
  intro rest
  rfl

theorem reads_stamped {m : Moment} (valid : m.Valid) :
    stamp.Reads (m.stamped .millis false 0).toList
      ⟨{ m with nanosecond := m.nanosecond / 1000000 * 1000000 }, 0⟩ := by
  have split : (m.stamped .millis false 0).toList =
      (m.written Moment.date).toList ++ (['T'] ++ ((m.written Moment.timeOfDay).toList ++ (['.'] ++
        ((Number.padded 3 (m.nanosecond / 1000000)).toList ++
          ((offsetText false 0).toList ++ []))))) := by
    simp [Moment.stamped, SecondsFormat.text, toString]
  have millis : m.nanosecond / 1000000 < 10 ^ 3 := by
    have := valid.nanosecond
    omega
  rw [split]
  refine (reads_date valid).bind ((Scan.reads_exactly _).bind ?_)
  refine (reads_timeOfDay valid).bind ((Scan.reads_exactly _).bind ?_)
  exact (reads_number (by decide) millis).bind (reads_offset.bind .pure)

theorem reads_dateAndTime {m : Moment} (valid : m.Valid) :
    moment.Reads (m.written (Moment.date ++ .literal ' ' :: Moment.timeOfDay)).toList
      { m with nanosecond := 0 } := by
  have split : (m.written (Moment.date ++ .literal ' ' :: Moment.timeOfDay)).toList =
      (m.written Moment.date).toList ++ ([' '] ++ ((m.written Moment.timeOfDay).toList ++ [])) := by
    simp [Moment.written, Item.text]
  rw [split]
  refine (reads_date valid).bind ((Scan.reads_exactly _).bind ?_)
  exact (reads_timeOfDay valid).bind .pure

end Read

end Calendar

end PathWatch
