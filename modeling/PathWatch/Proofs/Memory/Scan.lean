import Mathlib.Data.String.Basic
import PathWatch.Memory.Table
import PathWatch.Proofs.Keyed

/-! What a scan of a table finds. The table is ordered by the texts of its keys, and texts that begin
alike stand together in that order. -/
namespace PathWatch.Memory.Table

theorem not_lt_of_prefix {front key : List Char} (h : front <+: key) : ¬ key < front := by
  induction front generalizing key with
  | nil => exact List.not_lt_nil key
  | cons c front ih =>
    obtain ⟨rest, rfl⟩ := h
    have later := ih (List.prefix_append front rest)
    rw [List.cons_append, List.cons_lt_cons_iff]
    simp [later]

theorem prefix_of_between {front key other : List Char} (h : front <+: key)
    (above : ¬ other < front) (below : other < key) : front <+: other := by
  induction front generalizing key other with
  | nil => exact List.nil_prefix
  | cons c front ih =>
    obtain ⟨rest, rfl⟩ := h
    cases other with
    | nil => exact absurd (List.nil_lt_cons c front) above
    | cons d other =>
      rw [List.cons_lt_cons_iff, not_or] at above
      rw [List.cons_append, List.cons_lt_cons_iff] at below
      rcases below with less | ⟨rfl, less⟩
      · exact absurd less above.1
      · have later : ¬ other < front := fun before => above.2 ⟨rfl, before⟩
        exact List.cons_prefix_cons.2 ⟨rfl, ih (List.prefix_append front rest) later less⟩

variable {nodes : List (String × Node)}

/-- From where keys can begin with the text on, the first one that does not ends those that do. -/
theorem takeWhile_eq_filter {front : String} (ordered : Keyed.Ordered nodes)
    (above : ∀ e ∈ nodes, ¬ e.1 < front) :
    nodes.takeWhile (fun e => front.toList.isPrefixOf e.1.toList) =
      nodes.filter fun e => front.toList.isPrefixOf e.1.toList := by
  induction nodes with
  | nil => rfl
  | cons e nodes ih =>
    obtain ⟨first, rest⟩ := List.pairwise_cons.1 ordered
    rw [List.takeWhile_cons, List.filter_cons]
    split
    · rw [ih rest fun x hx => above x (List.mem_cons_of_mem e hx)]
    · next other =>
      refine (List.filter_eq_nil_iff.2 fun x hx begins => other ?_).symm
      have less := String.lt_iff_toList_lt.1 (first x hx)
      have least := mt String.lt_iff_toList_lt.2 (above e List.mem_cons_self)
      exact List.isPrefixOf_iff_prefix.2
        (prefix_of_between (List.isPrefixOf_iff_prefix.1 begins) least less)

theorem scan_eq_filter (ordered : Keyed.Ordered nodes) (front : String) :
    scan front nodes = nodes.filter fun e => front.toList.isPrefixOf e.1.toList := by
  induction nodes with
  | nil => rfl
  | cons e nodes ih =>
    obtain ⟨first, rest⟩ := List.pairwise_cons.1 ordered
    rw [scan, List.dropWhile_cons]
    split
    · next before =>
      have other : ¬ front.toList.isPrefixOf e.1.toList = true := fun begins =>
        not_lt_of_prefix (List.isPrefixOf_iff_prefix.1 begins)
          (String.lt_iff_toList_lt.1 (of_decide_eq_true before))
      rw [List.filter_cons, if_neg other]
      exact ih rest
    · next least =>
      -- Nothing that follows comes before the text either.
      refine takeWhile_eq_filter ordered fun x hx before => least (decide_eq_true ?_)
      rcases List.mem_cons.1 hx with rfl | hx
      · exact before
      · exact String.lt_trans (first x hx) before

theorem mem_keys_scan (ordered : Keyed.Ordered nodes) {front key : String} :
    key ∈ Keyed.keys (scan front nodes) ↔
      key ∈ Keyed.keys nodes ∧ front.toList <+: key.toList := by
  rw [scan_eq_filter ordered, Keyed.keys, Keyed.keys, List.mem_map, List.mem_map]
  constructor
  · rintro ⟨e, he, rfl⟩
    obtain ⟨he, begins⟩ := List.mem_filter.1 he
    exact ⟨⟨e, he, rfl⟩, List.isPrefixOf_iff_prefix.1 begins⟩
  · rintro ⟨⟨e, he, rfl⟩, begins⟩
    exact ⟨e, List.mem_filter.2 ⟨he, List.isPrefixOf_iff_prefix.2 begins⟩, rfl⟩

theorem lookup_eraseAll (keys : List String) (nodes : List (String × Node)) (key : String) :
    (eraseAll keys nodes).lookup key = if key ∈ keys then none else nodes.lookup key := by
  induction keys generalizing nodes with
  | nil => simp [eraseAll]
  | cons first keys ih =>
    have later := ih (Keyed.erase first nodes)
    rw [eraseAll] at later ⊢
    rw [List.foldl_cons, later, Keyed.lookup_erase]
    by_cases same : key = first <;> simp [same]

theorem ordered_eraseAll (ordered : Keyed.Ordered nodes) (keys : List String) :
    Keyed.Ordered (eraseAll keys nodes) := by
  induction keys generalizing nodes with
  | nil => exact ordered
  | cons first keys ih => exact ih (ordered.filter _)

theorem lookup_pruned (ordered : Keyed.Ordered nodes) (key k : String) :
    let left := Keyed.erase key nodes
    (eraseAll (Keyed.keys (scan (key ++ "/") left)) left).lookup k =
      if k = key ∨ (key ++ "/").toList <+: k.toList then none else nodes.lookup k := by
  intro left
  have still : Keyed.Ordered left := ordered.filter _
  have found : left.lookup k = if k = key then none else nodes.lookup k := Keyed.lookup_erase k key _
  simp only [lookup_eraseAll, mem_keys_scan still]
  by_cases below : (key ++ "/").toList <+: k.toList
  · have goes : k = key ∨ (key ++ "/").toList <+: k.toList := .inr below
    rw [if_pos goes]
    split
    · rfl
    · next absent => exact Keyed.lookup_eq_none_iff.2 fun there => absent ⟨there, below⟩
  · rw [if_neg fun inside => below inside.2, found]
    simp only [below, or_false]

end PathWatch.Memory.Table
