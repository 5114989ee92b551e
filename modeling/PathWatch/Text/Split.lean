/-!
A list cut at every occurrence of a separator, and where the last one stands.
-/
namespace PathWatch.Text

variable {α : Type} [DecidableEq α]

def splitOn (separator : α) : List α → List (List α)
  | [] => [[]]
  | x :: xs =>
    if x = separator then [] :: splitOn separator xs
    else
      match splitOn separator xs with
      | [] => [[x]]
      | part :: parts => (x :: part) :: parts

def lastIndex? (separator : α) : List α → Option Nat
  | [] => none
  | x :: xs =>
    match lastIndex? separator xs with
    | some i => some (i + 1)
    | none => if x = separator then some 0 else none

theorem getElem?_of_lastIndex? {separator : α} {xs : List α} {i : Nat}
    (h : lastIndex? separator xs = some i) : xs[i]? = some separator := by
  induction xs generalizing i with
  | nil => cases h
  | cons x xs ih =>
    rw [lastIndex?] at h
    split at h
    · next j hj =>
      cases h
      exact ih hj
    · split at h
      · next same =>
        cases h
        exact congrArg some same
      · cases h

theorem splitOn_ne_nil (separator : α) (xs : List α) : splitOn separator xs ≠ [] := by
  cases xs with
  | nil => simp [splitOn]
  | cons x xs =>
    simp only [splitOn]
    split
    · simp
    · split <;> simp

theorem splitOn_cons_ne {separator x : α} (h : x ≠ separator) {xs part : List α}
    {parts : List (List α)} (hs : splitOn separator xs = part :: parts) :
    splitOn separator (x :: xs) = (x :: part) :: parts := by
  simp [splitOn, h, hs]

theorem intercalate_splitOn (separator : α) (xs : List α) :
    List.intercalate [separator] (splitOn separator xs) = xs := by
  induction xs with
  | nil => simp [splitOn, List.intercalate]
  | cons x xs ih =>
    obtain ⟨part, parts, hs⟩ := List.exists_cons_of_ne_nil (splitOn_ne_nil separator xs)
    by_cases h : x = separator
    · rw [hs] at ih
      simp [splitOn, h, hs, List.intercalate] at ih ⊢
      exact ih
    · rw [splitOn_cons_ne h hs]
      rw [hs] at ih
      cases parts with
      | nil => simp [List.intercalate] at ih ⊢; exact ih
      | cons p ps => simp [List.intercalate] at ih ⊢; exact ih

end PathWatch.Text
