import Mathlib.Data.List.Nodup
import PathWatch.Proofs.Snapshot.Consistent

/-! The lists of names that lead to the nodes of a snapshot. There is one for each
node, and in a consistent snapshot all but the empty list are live. -/
namespace PathWatch.Snapshot

mutual

def paths : Snapshot → List (List String)
  | .node _ cs => [] :: pathsBelow cs

def pathsBelow : List (String × Snapshot) → List (List String)
  | [] => []
  | (name, s) :: cs => s.paths.map (name :: ·) ++ pathsBelow cs

end

theorem pathsBelow_eq (cs : List (String × Snapshot)) :
    pathsBelow cs = cs.flatMap fun c => c.2.paths.map (c.1 :: ·) := by
  induction cs with
  | nil => rfl
  | cons c cs ih =>
    obtain ⟨name, s⟩ := c
    rw [pathsBelow, ih, List.flatMap_cons]

mutual

theorem length_paths : ∀ s : Snapshot, s.paths.length = s.nodeCount
  | .node _ cs => by rw [paths, nodeCount, List.length_cons, length_pathsBelow cs, Nat.add_comm]

theorem length_pathsBelow : ∀ cs : List (String × Snapshot), (pathsBelow cs).length = nodeCounts cs
  | [] => rfl
  | (_, s) :: cs => by
    rw [pathsBelow, nodeCounts, List.length_append, List.length_map, length_paths s,
      length_pathsBelow cs]

end

theorem mem_paths_cons {f : Facts} {cs : List (String × Snapshot)} {name : String}
    {q : List String} :
    name :: q ∈ (node f cs).paths ↔ ∃ s, (name, s) ∈ cs ∧ q ∈ s.paths := by
  rw [paths, List.mem_cons, pathsBelow_eq, List.mem_flatMap]
  simp only [reduceCtorEq, false_or, List.mem_map, List.cons.injEq, Prod.exists]
  constructor
  · intro h
    obtain ⟨_, s, hs, r, hr, rfl, rfl⟩ := h
    exact ⟨s, hs, hr⟩
  · intro h
    obtain ⟨s, hs, hq⟩ := h
    exact ⟨name, s, hs, q, hq, rfl, rfl⟩

theorem mem_paths_of_descend? {q : List String} {s t : Snapshot} (h : descend? q s = some t) :
    q ∈ s.paths := by
  induction q generalizing s with
  | nil =>
    cases s
    exact List.mem_cons_self
  | cons name q ih =>
    obtain ⟨f, cs⟩ := s
    obtain ⟨u, hu, ht⟩ := Option.bind_eq_some_iff.1 h
    exact mem_paths_cons.2 ⟨u, Keyed.mem_of_lookup hu, ih ht⟩

theorem Consistent.mem_paths_iff {s : Snapshot} (h : s.Consistent) {q : List String} :
    q ∈ s.paths ↔ ∃ t, descend? q s = some t := by
  refine ⟨?_, fun found => mem_paths_of_descend? found.choose_spec⟩
  induction q generalizing s with
  | nil => exact fun _ => ⟨s, rfl⟩
  | cons name q ih =>
    intro mem
    obtain ⟨f, cs⟩ := s
    obtain ⟨u, hu, below⟩ := mem_paths_cons.1 mem
    obtain ⟨_, _, ordered, children⟩ := h
    obtain ⟨t, ht⟩ := ih (allConsistent_iff.1 children (name, u) hu).2 below
    exact ⟨t, by rw [descend?, child?, Snapshot.children, ordered.lookup_of_mem hu]; exact ht⟩

theorem Consistent.nodup_paths {s : Snapshot} (h : s.Consistent) : s.paths.Nodup := by
  induction s using Snapshot.induction with
  | node f cs ih =>
    obtain ⟨_, _, ordered, children⟩ := h
    rw [paths, pathsBelow_eq, List.nodup_cons]
    constructor
    · intro mem
      obtain ⟨c, _, found⟩ := List.mem_flatMap.1 mem
      obtain ⟨_, _, nil⟩ := List.mem_map.1 found
      cases nil
    · refine List.pairwise_flatMap.2 ⟨?_, ordered.imp ?_⟩
      · intro c hc
        have below := ih c.1 c.2 hc (allConsistent_iff.1 children c hc).2
        exact below.map fun _ _ same => (List.cons.inj same).2
      · intro c d less q hq r hr same
        obtain ⟨q, _, rfl⟩ := List.mem_map.1 hq
        obtain ⟨r, _, rfl⟩ := List.mem_map.1 hr
        rw [(List.cons.inj same).1] at less
        exact String.lt_irrefl _ less

end PathWatch.Snapshot
