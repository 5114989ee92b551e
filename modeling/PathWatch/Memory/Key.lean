import PathWatch.Memory.Path

/-!
Paths as the texts under which a store keeps them. What is above a path and what
it is called are read off its text, at the last slash.
-/
namespace PathWatch.Memory.Key

/-- The root alone has no parent; a slash that is in front belongs to the root. -/
def parent? (key : String) : Option String :=
  if key = "/" then none
  else
    match Text.lastIndex? '/' key.toList with
    | none => none
    | some 0 => some "/"
    | some i => some (String.ofList (key.toList.take i))

def name (key : String) : String :=
  String.ofList ((Text.splitOn '/' key.toList).reverse.head?.getD [])

theorem length_lt_of_parent? {key parent : String} (h : parent? key = some parent) :
    parent.length < key.length := by
  rw [parent?] at h
  split at h
  · cases h
  next root =>
  split at h
  · cases h
  · next found =>
    cases h
    -- a slash alone would be the root
    obtain ⟨rest, split⟩ : ∃ rest, key.toList = '/' :: rest := by
      have first := Text.getElem?_of_lastIndex? found
      rw [← List.head?_eq_getElem?] at first
      exact List.head?_eq_some_iff.1 first
    have more : rest ≠ [] := by
      rintro rfl
      exact root (String.toList_inj.1 split)
    have longer := List.length_pos_iff.2 more
    rw [← String.length_toList (s := key), split, List.length_cons]
    exact Nat.succ_lt_succ longer
  · next i _ found =>
    cases h
    obtain ⟨below, _⟩ := List.getElem?_eq_some_iff.1 (Text.getElem?_of_lastIndex? found)
    rw [String.length_ofList, List.length_take, ← String.length_toList (s := key)]
    omega

def ancestors (key : String) : List String :=
  match _above : parent? key with
  | none => []
  | some parent => parent :: ancestors parent
termination_by key.length
decreasing_by exact length_lt_of_parent? _above

def front (key : String) : String := if key = "/" then "/" else key ++ "/"

end PathWatch.Memory.Key
