/-!
Lists of pairs kept in the order of their keys. A look-up is `List.lookup` and
takes the first pair with the key; inserting replaces such a pair or goes in
before the first larger key, so a list built by insertion is strictly ordered.
-/
namespace PathWatch.Keyed

variable {κ ν : Type} [LT κ] [DecidableLT κ] [DecidableEq κ]

def insert (k : κ) (v : ν) : List (κ × ν) → List (κ × ν)
  | [] => [(k, v)]
  | (l, w) :: rest =>
    if k = l then (k, v) :: rest
    else if k < l then (k, v) :: (l, w) :: rest
    else (l, w) :: insert k v rest

/-- Of two pairs with one key the later one is kept. -/
def ofList (pairs : List (κ × ν)) : List (κ × ν) :=
  pairs.foldl (fun m p => insert p.1 p.2 m) []

def erase (k : κ) (m : List (κ × ν)) : List (κ × ν) := m.filter (fun p => p.1 ≠ k)

def keys (m : List (κ × ν)) : List κ := m.map Prod.fst

def Ordered (m : List (κ × ν)) : Prop := m.Pairwise (fun p q => p.1 < q.1)

omit [LT κ] [DecidableLT κ] in
theorem lookup_cons (k l : κ) (v : ν) (m : List (κ × ν)) :
    ((l, v) :: m).lookup k = if k = l then some v else m.lookup k := by
  rw [List.lookup_cons]
  by_cases h : k = l
  · simp [h]
  · have : (k == l) = false := by simp [h]
    simp [h, this]

theorem lookup_insert_self (k : κ) (v : ν) (m : List (κ × ν)) :
    (insert k v m).lookup k = some v := by
  induction m with
  | nil => simp [insert]
  | cons p m ih =>
    obtain ⟨l, w⟩ := p
    by_cases h : k = l
    · simp [insert, h]
    · by_cases g : k < l <;> simp [insert, lookup_cons, h, g, ih]

theorem lookup_insert_ne {j k : κ} (h : j ≠ k) (v : ν) (m : List (κ × ν)) :
    (insert k v m).lookup j = m.lookup j := by
  induction m with
  | nil => simp [insert, lookup_cons, h]
  | cons p m ih =>
    obtain ⟨l, w⟩ := p
    by_cases e : k = l
    · subst e; simp [insert, lookup_cons, h]
    · by_cases g : k < l <;> simp [insert, lookup_cons, h, e, g, ih]

omit [LT κ] [DecidableLT κ] in
theorem lookup_erase (j k : κ) (m : List (κ × ν)) :
    (erase k m).lookup j = if j = k then none else m.lookup j := by
  induction m with
  | nil => simp [erase]
  | cons p m ih =>
    obtain ⟨l, w⟩ := p
    simp only [erase] at ih ⊢
    by_cases e : l = k
    · subst e
      rw [List.filter_cons_of_neg (by simp), ih, lookup_cons]
      by_cases h : j = l <;> simp [h]
    · rw [List.filter_cons_of_pos (by simp [e]), lookup_cons, lookup_cons, ih]
      by_cases h : j = l
      · subst h; simp [e]
      · simp [h]

theorem mem_insert {k : κ} {v : ν} {p : κ × ν} {m : List (κ × ν)}
    (h : p ∈ insert k v m) : p = (k, v) ∨ p ∈ m := by
  induction m with
  | nil => simpa [insert] using h
  | cons q m ih =>
    obtain ⟨l, w⟩ := q
    simp only [insert] at h
    split at h
    · rcases List.mem_cons.1 h with h | h <;> simp [h]
    · split at h
      · rcases List.mem_cons.1 h with h | h
        · exact .inl h
        · exact .inr h
      · rcases List.mem_cons.1 h with h | h
        · exact .inr (by simp [h])
        · exact (ih h).imp_right (List.mem_cons_of_mem _)

end PathWatch.Keyed
