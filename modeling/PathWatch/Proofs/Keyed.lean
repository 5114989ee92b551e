import Mathlib.Data.List.Dedup
import Mathlib.Data.String.Basic
import PathWatch.Keyed

/-! Which keys a list of pairs has after an insertion or a selection, and that
insertion keeps the keys strictly ordered. -/
namespace PathWatch.Keyed

variable {κ ν : Type} [LT κ] [DecidableLT κ] [DecidableEq κ]

theorem mem_keys_insert {j k : κ} {v : ν} {m : List (κ × ν)} :
    j ∈ keys (insert k v m) ↔ j = k ∨ j ∈ keys m := by
  induction m with
  | nil => simp [insert, keys]
  | cons p m ih =>
    obtain ⟨l, w⟩ := p
    simp only [keys, List.map_cons, List.mem_cons] at ih ⊢
    by_cases h : k = l
    · subst h
      simp [insert]
    · by_cases g : k < l
      · simp [insert, h, g]
      · simp only [insert, h, g, if_false, List.map_cons, List.mem_cons, ih]
        tauto

omit [LT κ] [DecidableLT κ] in
theorem isSome_lookup_iff {k : κ} {m : List (κ × ν)} : (m.lookup k).isSome ↔ k ∈ keys m := by
  simp only [List.lookup_isSome_iff, keys, List.mem_map, beq_iff_eq]
  constructor
  · intro h
    obtain ⟨p, hp, rfl⟩ := h
    exact ⟨p, hp, rfl⟩
  · intro h
    obtain ⟨p, hp, rfl⟩ := h
    exact ⟨p, hp, rfl⟩

omit [LT κ] [DecidableLT κ] in
theorem lookup_eq_none_iff {k : κ} {m : List (κ × ν)} : m.lookup k = none ↔ k ∉ keys m := by
  rw [← isSome_lookup_iff, Option.not_isSome_iff_eq_none]

omit [LT κ] [DecidableLT κ] in
theorem mem_of_lookup {k : κ} {v : ν} {m : List (κ × ν)} (h : m.lookup k = some v) :
    (k, v) ∈ m := by
  obtain ⟨front, rest, rfl, _⟩ := List.lookup_eq_some_iff.1 h
  simp

omit [LT κ] [DecidableLT κ] in
theorem lookup_filter (keep : κ → Bool) (m : List (κ × ν)) (k : κ) :
    (m.filter fun p => keep p.1).lookup k = if keep k then m.lookup k else none := by
  induction m with
  | nil => simp
  | cons p m ih =>
    obtain ⟨l, w⟩ := p
    by_cases h : keep l
    · rw [List.filter_cons, if_pos h, lookup_cons, lookup_cons, ih]
      by_cases e : k = l
      · subst e
        simp [h]
      · simp [e]
    · rw [List.filter_cons, if_neg h, lookup_cons, ih]
      by_cases e : k = l
      · subst e
        simp [h]
      · simp [e]

theorem ordered_insert [IsTrans κ (· < ·)] [Std.Trichotomous (α := κ) (· < ·)]
    (k : κ) (v : ν) {m : List (κ × ν)} (hm : Ordered m) : Ordered (insert k v m) := by
  induction m with
  | nil => simp [insert, Ordered]
  | cons p m ih =>
    obtain ⟨l, w⟩ := p
    obtain ⟨hl, ht⟩ := List.pairwise_cons.1 hm
    by_cases h : k = l
    · subst h
      simp only [insert, if_true]
      exact .cons hl ht
    · by_cases g : k < l
      · simp only [insert, h, g, if_true, if_false]
        refine List.pairwise_cons.2 ⟨?_, .cons hl ht⟩
        intro q hq
        rcases List.mem_cons.1 hq with rfl | hq
        · exact g
        · exact IsTrans.trans _ _ _ g (hl q hq)
      · simp only [insert, h, g, if_false]
        refine List.pairwise_cons.2 ⟨?_, ih ht⟩
        intro q hq
        rcases mem_insert hq with rfl | hq
        · by_contra hn
          exact h (Std.Trichotomous.trichotomous k l g hn)
        · exact hl q hq

omit [DecidableLT κ] in
theorem Ordered.lookup_of_mem [Std.Irrefl (α := κ) (· < ·)] {m : List (κ × ν)} (hm : Ordered m)
    {k : κ} {v : ν} (h : (k, v) ∈ m) : m.lookup k = some v := by
  induction m with
  | nil => cases h
  | cons p m ih =>
    obtain ⟨first, rest⟩ := List.pairwise_cons.1 hm
    obtain ⟨l, w⟩ := p
    rw [lookup_cons]
    rcases List.mem_cons.1 h with same | h
    · cases same
      exact if_pos rfl
    · have ne : k ≠ l := by
        intro same
        have less : l < k := first (k, v) h
        rw [same] at less
        exact Std.Irrefl.irrefl l less
      rw [if_neg ne, ih rest h]

omit [DecidableLT κ] [DecidableEq κ] in
theorem Ordered.nodup_keys [Std.Irrefl (α := κ) (· < ·)] {m : List (κ × ν)} (hm : Ordered m) :
    (keys m).Nodup := by
  apply (List.pairwise_map.2 hm).imp
  intro k l less same
  subst same
  exact Std.Irrefl.irrefl k less

omit [DecidableLT κ] in
theorem Ordered.ext [IsTrans κ (· < ·)] [Std.Irrefl (α := κ) (· < ·)] {m m' : List (κ × ν)}
    (hm : Ordered m) (hm' : Ordered m') (same : ∀ k, m.lookup k = m'.lookup k) : m = m' := by
  have nodup {m : List (κ × ν)} (hm : Ordered m) : m.Nodup := by
    apply hm.imp
    intro e d less same
    subst same
    exact Std.Irrefl.irrefl e.1 less
  have perm : m.Perm m' := by
    rw [List.perm_ext_iff_of_nodup (nodup hm) (nodup hm')]
    intro e
    constructor
    · intro he
      exact mem_of_lookup (same e.1 ▸ hm.lookup_of_mem he)
    · intro he
      exact mem_of_lookup (same e.1 ▸ hm'.lookup_of_mem he)
  refine perm.eq_of_pairwise ?_ hm hm'
  intro e d _ _ less more
  exact absurd (IsTrans.trans _ _ _ less more) (Std.Irrefl.irrefl e.1)

theorem mem_keys_foldl_insert {j : κ} {pairs m : List (κ × ν)} :
    j ∈ keys (pairs.foldl (fun m p => insert p.1 p.2 m) m) ↔ j ∈ keys pairs ∨ j ∈ keys m := by
  induction pairs generalizing m with
  | nil => simp [keys]
  | cons p pairs ih =>
    have first : j ∈ keys (p :: pairs) ↔ j = p.1 ∨ j ∈ keys pairs := List.mem_cons
    rw [List.foldl_cons, ih, mem_keys_insert, first]
    tauto

theorem mem_keys_ofList {j : κ} {pairs : List (κ × ν)} : j ∈ keys (ofList pairs) ↔ j ∈ keys pairs :=
  mem_keys_foldl_insert.trans (or_iff_left List.not_mem_nil)

theorem ordered_ofList [IsTrans κ (· < ·)] [Std.Trichotomous (α := κ) (· < ·)]
    (pairs : List (κ × ν)) : Ordered (ofList pairs) := by
  have build (m : List (κ × ν)) (hm : Ordered m) :
      Ordered (pairs.foldl (fun m p => insert p.1 p.2 m) m) := by
    induction pairs generalizing m with
    | nil => exact hm
    | cons p pairs ih => exact ih _ (ordered_insert p.1 p.2 hm)
  exact build [] .nil

theorem length_ofList_eq_iff [IsTrans κ (· < ·)] [Std.Trichotomous (α := κ) (· < ·)]
    [Std.Irrefl (α := κ) (· < ·)] {pairs : List (κ × ν)} :
    (ofList pairs).length = pairs.length ↔ (keys pairs).Nodup := by
  -- the keys that are kept are those of the pairs, each once
  have nodup : (keys (ofList pairs)).Nodup := (ordered_ofList pairs).nodup_keys
  have perm : (keys (ofList pairs)).Perm (keys pairs).dedup := by
    rw [List.perm_ext_iff_of_nodup nodup (List.nodup_dedup _)]
    intro j
    rw [mem_keys_ofList, List.mem_dedup]
  have lengths : (ofList pairs).length = (keys pairs).dedup.length := by
    rw [← perm.length_eq, keys, List.length_map]
  have all : pairs.length = (keys pairs).length := (List.length_map Prod.fst).symm
  rw [lengths, all]
  constructor
  · intro same
    exact List.dedup_eq_self.1 ((List.dedup_sublist _).eq_of_length same)
  · intro once
    rw [List.dedup_eq_self.2 once]

end PathWatch.Keyed
