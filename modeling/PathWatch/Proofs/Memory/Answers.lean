import PathWatch.Proofs.Capture.Failures
import PathWatch.Proofs.Memory.Order

/-! What a store answers about each path, and so which paths a capture comes to and
which of these it cannot read. -/
namespace PathWatch.Memory

open Snapshot

/-- A failing path below `p` that exists, with none between the two. -/
structure Foremost (s : Store) (p f : Path) : Prop where
  failing : f ∈ s.failing
  there : s.contains f = true
  below : p <+: f
  ne : f ≠ p
  first : ∀ r ∈ s.failing, p <+: r → r ≠ p → r <+: f → r = f

namespace Store

def answers (s : Store) : Queries Path Unit := queries fun _ => s

theorem steady_queries (s : Store) : (queries fun t : Store => t).Steady (· = s) where
  within :=
    { refl _ h := h
      trans h h' hs := h' (h hs)
      isPresent _ _ h := h
      modified _ _ h := h
      isFolder _ _ h := h
      size _ _ h := h
      children _ _ h := h }
  same t u ht hu := by rw [ht, hu]

variable {s : Store} {p : Path}

theorem inspect_eq (s : Store) (p : Path) : s.answers.inspect true p =
    if p ∈ s.failing then .error (.unavailable p.idText)
    else match s.node? p with
      | none => .ok .absent
      | some ⟨.file bytes, m⟩ => .ok (.file (.ofMillis m) bytes.size)
      | some ⟨.folder, m⟩ => .ok (.folder (.ofMillis m) (s.listed p)) := by
  by_cases failing : p ∈ s.failing
  · simp [Queries.inspect, answers, queries, isPresent, look, failing, FsError.isNotFound, bind,
      Except.bind]
  · rw [if_neg failing]
    split
    · next hn =>
      simp [Queries.inspect, answers, queries, isPresent, look, failing, hn, FsError.isNotFound, bind,
        Except.bind, pure, Except.pure]
    · next bytes m hn =>
      simp [Queries.inspect, answers, queries, isPresent, modified, isFolder, size, look, failing, hn,
        bind, Except.bind, pure, Except.pure, Except.map]
    · next m hn =>
      simp [Queries.inspect, answers, queries, isPresent, modified, isFolder, children, look, failing,
        hn, bind, Except.bind, pure, Except.pure, Except.map, listed]

theorem fails_iff {e : FsError} :
    s.answers.Fails true p e ↔ p ∈ s.failing ∧ e = .unavailable p.idText := by
  rw [Queries.Fails, inspect_eq]
  by_cases failing : p ∈ s.failing
  · rw [if_pos failing]
    constructor
    · intro h
      cases h.1
      exact ⟨failing, rfl⟩
    · intro h
      rw [h.2]
      exact ⟨rfl, rfl⟩
  · rw [if_neg failing]
    refine iff_of_false ?_ fun h => failing h.1
    intro h
    obtain ⟨h, _⟩ := h
    split at h <;> cases h

theorem Tree.listed_eq_nil (h : s.Tree) (leaf : ¬ s.FolderAt p) : s.listed p = [] := by
  refine List.eq_nil_iff_forall_not_mem.2 ?_
  intro c hc
  obtain ⟨there, name, rfl⟩ := mem_listed.1 hc
  obtain ⟨n, hn⟩ := Option.isSome_iff_exists.1 there
  exact leaf (h.parent p name n hn)

theorem Tree.listing_eq (h : s.Tree) (p : Path) :
    s.answers.listing true p = if p ∈ s.failing then [] else s.listed p := by
  rw [Queries.listing, inspect_eq]
  by_cases failing : p ∈ s.failing
  · rw [if_pos failing, if_pos failing]
  · have leaf (absent : ¬ s.FolderAt p) := (h.listed_eq_nil absent).symm
    rw [if_neg failing, if_neg failing]
    cases hn : s.node? p with
    | none => exact leaf fun folder => by simp [FolderAt, hn] at folder
    | some n =>
      obtain ⟨bytes | _, m⟩ := n
      · exact leaf fun folder => by simp [FolderAt, hn] at folder
      · rfl

theorem orderly (tree : s.Tree) (ordered : s.Ordered) {depth : Nat} (deep : DeepEnough s p depth) :
    s.answers.Orderly true (· < ·) depth p := by
  induction depth generalizing p with
  | zero => exact absurd deep.1 (Nat.lt_irrefl 0)
  | succ depth ih =>
    rw [Queries.Orderly, tree.listing_eq]
    split
    · exact ⟨.nil, nofun⟩
    · refine ⟨ordered.listed_sorted p, ?_⟩
      intro c hc
      obtain ⟨there, name, rfl⟩ := mem_listed.1 hc
      obtain ⟨n, hn⟩ := Option.isSome_iff_exists.1 there
      exact ih (deep.child hn)

def Clear (s : Store) (p d : Path) : Prop := ∀ r ∈ s.failing, p <+: r → r <+: d → r = d

theorem clear_self (s : Store) (p : Path) : s.Clear p p := by
  intro r _ below above
  exact above.eq_of_length (Nat.le_antisymm above.length_le below.length_le)

theorem clear_cons_iff {name : String} {names : List String} :
    s.Clear p (p ++ name :: names) ↔
      p ∉ s.failing ∧ s.Clear (p ++ [name]) (p ++ name :: names) := by
  constructor
  · intro clear
    constructor
    · intro failing
      have same := clear p failing List.prefix_rfl (List.prefix_append _ _)
      exact List.cons_ne_nil name names (List.append_right_eq_self.1 same.symm)
    · intro r hr under above
      exact clear r hr ((List.prefix_append p [name]).trans under) above
  · intro both r hr under above
    obtain ⟨ok, clear⟩ := both
    by_cases root : r = p
    · exact absurd (root ▸ hr) ok
    · exact clear r hr (through_child under root above) above

theorem Tree.reaches_iff (h : s.Tree) {names : List String} {d : Path} :
    s.answers.Reaches true p names d ↔
      d = p ++ names ∧ (names ≠ [] → s.contains d = true) ∧ s.Clear p d := by
  induction names generalizing p with
  | nil =>
    rw [Capture.reaches_nil_iff, List.append_nil]
    refine ⟨?_, And.left⟩
    rintro rfl
    exact ⟨rfl, fun h => absurd rfl h, s.clear_self d⟩
  | cons name names ih =>
    have path : p ++ name :: names = p ++ [name] ++ names := List.append_cons p name names
    rw [Capture.reaches_cons_iff, h.listing_eq]
    constructor
    · intro reaches
      obtain ⟨c, listed, same, below⟩ := reaches
      split at listed
      · cases listed
      next ok =>
      obtain ⟨there, name', rfl⟩ := mem_listed.1 listed
      obtain rfl : name' = name := (Path.name_append p name').symm.trans same
      obtain ⟨rfl, found, clear⟩ := ih.1 below
      rw [← path] at found clear ⊢
      refine ⟨rfl, fun _ => ?_, clear_cons_iff.2 ⟨ok, clear⟩⟩
      cases names with
      | nil => exact there
      | cons _ _ => exact found (List.cons_ne_nil _ _)
    · intro found
      obtain ⟨rfl, there, clear⟩ := found
      obtain ⟨ok, clear⟩ := clear_cons_iff.1 clear
      have found := there (List.cons_ne_nil _ _)
      obtain ⟨n, hn⟩ := Option.isSome_iff_exists.1 found
      obtain ⟨m, hm⟩ := h.node_above hn ⟨names, path.symm⟩
      rw [if_neg ok]
      exact ⟨p ++ [name], mem_listed.2 ⟨by rw [hm]; rfl, name, rfl⟩, Path.name_append p name,
        ih.2 ⟨path, fun _ => found, clear⟩⟩

theorem Tree.failsAt_iff (h : s.Tree) (ok : p ∉ s.failing) {names : List String} {d : Path}
    {e : FsError} : s.answers.FailsAt true p names d e ↔
      d = p ++ names ∧ e = .unavailable d.idText ∧ Foremost s p d := by
  rw [Queries.FailsAt, h.reaches_iff, fails_iff]
  constructor
  · intro fails
    obtain ⟨below, ⟨rfl, there, clear⟩, failing, rfl⟩ := fails
    refine ⟨rfl, rfl, failing, there below, List.prefix_append p names, by simpa using below, ?_⟩
    exact fun r hr under _ above => clear r hr under above
  · intro found
    obtain ⟨rfl, rfl, failing, there, under, ne, first⟩ := found
    refine ⟨by simpa using ne, ⟨rfl, fun _ => there, ?_⟩, failing, rfl⟩
    intro r hr under above
    have root : r ≠ p := by
      intro same
      exact ok (same ▸ hr)
    exact first r hr under root above

theorem Tree.exists_foremost (h : s.Tree) (ok : p ∉ s.failing) {r : Path} (failing : r ∈ s.failing)
    (there : s.contains r = true) (below : p <+: r) : ∃ f, Foremost s p f ∧ f <+: r := by
  induction hn : r.length using Nat.strong_induction_on generalizing r with
  | h n ih =>
    have ne : r ≠ p := by
      intro same
      exact ok (same ▸ failing)
    by_cases first : ∀ q ∈ s.failing, p <+: q → q ≠ p → q <+: r → q = r
    · exact ⟨r, ⟨failing, there, below, ne, first⟩, List.prefix_rfl⟩
    · obtain ⟨q, hq, under, _, above, other⟩ : ∃ q ∈ s.failing, p <+: q ∧ q ≠ p ∧ q <+: r ∧ q ≠ r := by
        simpa using first
      have shorter : q.length < n :=
        hn ▸ lt_of_le_of_ne above.length_le fun same => other (above.eq_of_length same)
      obtain ⟨m, hm⟩ := Option.isSome_iff_exists.1 there
      obtain ⟨m', hm'⟩ := h.node_above hm above
      have there' : s.contains q = true := by
        rw [contains, hm']
        rfl
      obtain ⟨f, foremost, before⟩ := ih q.length shorter hq there' under rfl
      exact ⟨f, foremost, before.trans above⟩

end Store

end PathWatch.Memory
