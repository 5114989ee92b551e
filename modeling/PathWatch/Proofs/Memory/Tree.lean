import Mathlib.Logic.Basic
import PathWatch.Memory.Store
import PathWatch.Proofs.Keyed
import PathWatch.Proofs.Memory.Path

/-! Whatever is done to a store in memory, its nodes form a tree with a folder at
the root, and every change puts a time that no node had before. -/
namespace PathWatch.Memory.Store

def FolderAt (s : Store) (p : Path) : Prop := ∃ m, s.node? p = some ⟨.folder, m⟩

structure Tree (s : Store) : Prop where
  root : s.FolderAt []
  parent : ∀ p name n, s.node? (p ++ [name]) = some n → s.FolderAt p
  normal : ∀ p n, s.node? p = some n → p.IsNormal
  times : ∀ p n, s.node? p = some n → n.modified ≤ s.clock

structure Advances (s t : Store) : Prop where
  clock : s.clock ≤ t.clock
  node : ∀ q, t.node? q = s.node? q ∨ t.node? q = none ∨
    ∃ n, t.node? q = some n ∧ s.clock < n.modified ∧ n.modified ≤ t.clock

namespace Advances

variable {s t u : Store}

theorem refl (s : Store) : Advances s s := ⟨Nat.le_refl _, fun _ => .inl rfl⟩

theorem trans (h : Advances s t) (h' : Advances t u) : Advances s u := by
  have first := h.clock
  have second := h'.clock
  refine ⟨by omega, ?_⟩
  intro q
  rcases h'.node q with same | gone | ⟨n, hn, later, le⟩
  · rw [same]
    rcases h.node q with same | gone | ⟨n, hn, later, le⟩
    · exact .inl same
    · exact .inr (.inl gone)
    · exact .inr (.inr ⟨n, hn, later, by omega⟩)
  · exact .inr (.inl gone)
  · exact .inr (.inr ⟨n, hn, by omega, le⟩)

theorem times (h : Advances s t) (hs : ∀ p n, s.node? p = some n → n.modified ≤ s.clock) (p : Path)
    (n : Node) (hn : t.node? p = some n) : n.modified ≤ t.clock := by
  have clock := h.clock
  rcases h.node p with same | gone | ⟨m, hm, _, le⟩
  · have bound := hs p n (same ▸ hn)
    omega
  · rw [gone] at hn
    cases hn
  · rw [hm] at hn
    cases hn
    exact le

end Advances

section

variable (p : Path) (content : Content) (s : Store)

theorem node?_eq : s.node? p = @List.lookup Path Node instBEqOfDecidableEq p s.nodes := by
  -- paths are compared as lists in one place and as a type with equality in the other
  rw [node?]
  congr 1
  exact lawful_beq_subsingleton _ _

theorem node?_stamp (q : Path) : (s.stamp p content).node? q =
    if q = p then some ⟨content, s.clock + 1⟩ else s.node? q := by
  rw [node?_eq, node?_eq, stamp]
  split
  · next h =>
    subst h
    exact Keyed.lookup_insert_self _ _ _
  · next h => exact Keyed.lookup_insert_ne h _ _

theorem node?_restamp (q : Path) : (s.restamp p).node? q =
    if q = p then (s.node? p).map fun n => { n with modified := s.clock + 1 } else s.node? q := by
  rw [restamp]
  cases h : s.node? p with
  | none =>
    by_cases hq : q = p
    · subst hq
      rw [if_pos rfl]
      exact h
    · exact (if_neg hq).symm
  | some n => exact node?_stamp p n.content s q

theorem clock_restamp : (s.restamp p).clock = s.clock + 1 := by
  rw [restamp]
  split <;> rfl

theorem stamp_advances : Advances s (s.stamp p content) := by
  refine ⟨Nat.le_succ _, ?_⟩
  intro q
  rw [node?_stamp]
  split
  · exact .inr (.inr ⟨_, rfl, Nat.lt_succ_self _, Nat.le_refl _⟩)
  · exact .inl rfl

theorem restamp_advances : Advances s (s.restamp p) := by
  have clock := clock_restamp p s
  refine ⟨by omega, ?_⟩
  intro q
  rw [node?_restamp, clock]
  split
  · cases s.node? p with
    | none => exact .inr (.inl rfl)
    | some n => exact .inr (.inr ⟨_, rfl, Nat.lt_succ_self _, Nat.le_refl _⟩)
  · exact .inl rfl

theorem restampParent_advances : Advances s (s.restampParent p) := by
  rw [restampParent]
  split
  · exact restamp_advances _ s
  · exact .refl s

end

namespace Tree

variable {s : Store}

theorem stamp (h : s.Tree) {p : Path} {content : Content} (normal : p.IsNormal)
    (below : ∀ parent name, p = parent ++ [name] → s.FolderAt parent)
    (kind : content = .folder ∨ ¬ s.FolderAt p) : (s.stamp p content).Tree := by
  have folder {q : Path} (hq : s.FolderAt q) : (s.stamp p content).FolderAt q := by
    obtain ⟨m, hm⟩ := hq
    by_cases e : q = p
    · subst e
      have hc : content = .folder := kind.resolve_right fun hn => hn ⟨m, hm⟩
      exact ⟨s.clock + 1, by rw [node?_stamp, if_pos rfl, hc]⟩
    · exact ⟨m, by rw [node?_stamp, if_neg e, hm]⟩
  refine ⟨folder h.root, ?_, ?_, (stamp_advances p content s).times h.times⟩
  · intro q name n hn
    rw [node?_stamp] at hn
    split at hn
    · next e => exact folder (below q name e.symm)
    · exact folder (h.parent q name n hn)
  · intro q n hn
    rw [node?_stamp] at hn
    split at hn
    · next e => exact e ▸ normal
    · exact h.normal q n hn

theorem restamp (h : s.Tree) (p : Path) : (s.restamp p).Tree := by
  have content {q : Path} {n : Node} (hn : (s.restamp p).node? q = some n) :
      ∃ m, s.node? q = some m := by
    rw [node?_restamp] at hn
    split at hn
    · next e =>
      obtain ⟨m, hm, _⟩ := Option.map_eq_some_iff.1 hn
      exact ⟨m, e ▸ hm⟩
    · exact ⟨n, hn⟩
  have folder {q : Path} (hq : s.FolderAt q) : (s.restamp p).FolderAt q := by
    obtain ⟨m, hm⟩ := hq
    by_cases e : q = p
    · subst e
      exact ⟨s.clock + 1, by rw [node?_restamp, if_pos rfl, hm]; rfl⟩
    · exact ⟨m, by rw [node?_restamp, if_neg e, hm]⟩
  refine ⟨folder h.root, ?_, ?_, (restamp_advances p s).times h.times⟩
  · intro q name n hn
    obtain ⟨m, hm⟩ := content hn
    exact folder (h.parent q name m hm)
  · intro q n hn
    obtain ⟨m, hm⟩ := content hn
    exact h.normal q m hm

theorem restampParent (h : s.Tree) (p : Path) : (s.restampParent p).Tree := by
  rw [Store.restampParent]
  split
  · exact h.restamp _
  · exact h

theorem folder_above (h : s.Tree) {p q : Path} {n : Node} (hq : s.node? q = some n) (hp : p <+: q)
    (hne : p ≠ q) : s.FolderAt p := by
  induction q using List.reverseRecOn generalizing n with
  | nil => exact absurd (List.prefix_nil.1 hp) hne
  | append_singleton q name ih =>
    obtain ⟨m, hm⟩ := h.parent q name n hq
    rcases List.prefix_concat_iff.1 hp with e | hp
    · exact absurd e hne
    · by_cases e : p = q
      · exact e ▸ ⟨m, hm⟩
      · exact ih hm hp e

theorem node_above (h : s.Tree) {p q : Path} {n : Node} (hq : s.node? q = some n) (hp : p <+: q) :
    ∃ m, s.node? p = some m := by
  by_cases e : p = q
  · exact ⟨n, e ▸ hq⟩
  · obtain ⟨m, hm⟩ := h.folder_above hq hp e
    exact ⟨_, hm⟩

end Tree

theorem tree_empty : empty.Tree := by
  have node {p : Path} {n : Node} (h : empty.node? p = some n) : p = [] ∧ n = ⟨.folder, 1⟩ := by
    rw [empty, node?_stamp] at h
    split at h
    · next e =>
      cases h
      exact ⟨e, rfl⟩
    · cases h
  refine ⟨⟨1, rfl⟩, ?_, ?_, ?_⟩
  · intro p name n h
    exact absurd (node h).1 (by simp)
  · intro p n h name hn
    rw [(node h).1] at hn
    cases hn
  · intro p n h
    rw [(node h).2]
    exact Nat.le_refl 1

end PathWatch.Memory.Store
