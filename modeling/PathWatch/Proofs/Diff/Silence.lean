import Mathlib.Data.List.Sort
import PathWatch.Proofs.Diff.Script

/-! A comparison that finds nothing has compared two snapshots that no other comparison
tells apart. Whichever of them is kept, nothing that is told later gets lost or is added. -/
namespace PathWatch.Snapshot

def Indistinct (s t : Snapshot) : Prop := s.id = t.id ∧ ¬ Differ s t

/-- The same lists of names are live in both snapshots, and lead to nodes that are alike in all
that is ever compared. What is dead and the times of folders may be anything. -/
def Interchangeable (a b : Snapshot) : Prop := ∀ q, Option.Rel Indistinct (at? q a) (at? q b)

def NamedAlike (a b : Snapshot) : Prop :=
  ∀ q s t, a.Live q → descend? q a = some s → b.Live q → descend? q b = some t → s.id = t.id

theorem namedAlike_iff {a b : Snapshot} : NamedAlike a b ↔
    ∀ q ∈ a.paths, ∀ s ∈ at? q a, ∀ t ∈ at? q b, s.id = t.id := by
  constructor
  · intro h q _ s hs t ht
    obtain ⟨before, was⟩ := at?_eq_some_iff.1 hs
    obtain ⟨now, node⟩ := at?_eq_some_iff.1 ht
    exact h q s t before was now node
  · intro h q s t before was now node
    exact h q (mem_paths_of_descend? was) s (at?_eq_some_iff.2 ⟨before, was⟩) t
      (at?_eq_some_iff.2 ⟨now, node⟩)

instance (a b : Snapshot) : Decidable (NamedAlike a b) := decidable_of_iff _ namedAlike_iff.symm

section

variable {s t u : Snapshot}

theorem not_differ_iff : ¬ Differ s t ↔ s.isFolder = t.isFolder ∧
    (s.isFolder = false → s.facts.modified = t.facts.modified ∧ s.facts.size = t.facts.size) := by
  rw [Differ]
  cases s.isFolder <;> cases t.isFolder <;> simp [not_or]

theorem Differ.symm (h : Differ s t) : Differ t s := by
  rcases h with kind | ⟨hs, ht, time | size⟩
  · exact .inl kind.symm
  · exact .inr ⟨ht, hs, .inl time.symm⟩
  · exact .inr ⟨ht, hs, .inr size.symm⟩

namespace Indistinct

theorem isFolder (h : Indistinct s t) : s.isFolder = t.isFolder := (not_differ_iff.1 h.2).1

theorem symm (h : Indistinct s t) : Indistinct t s := ⟨h.1.symm, fun differ => h.2 differ.symm⟩

theorem differ (h : Indistinct s t) (differ : Differ s u) : Differ t u := by
  by_contra same
  obtain ⟨kind, file⟩ := not_differ_iff.1 h.2
  obtain ⟨kind', file'⟩ := not_differ_iff.1 same
  refine not_differ_iff.2 ⟨kind.trans kind', ?_⟩ differ
  intro hs
  obtain ⟨time, size⟩ := file hs
  obtain ⟨time', size'⟩ := file' (kind ▸ hs)
  exact ⟨time.trans time', size.trans size'⟩

theorem differ_iff (h : Indistinct s t) : Differ s u ↔ Differ t u := ⟨h.differ, h.symm.differ⟩

end Indistinct

end

section

variable {x y z : Option Snapshot} {kept kept' : Prop} {e : ChangeEvent}

theorem verdict_congr_before (h : Option.Rel Indistinct x y) :
    Verdict x z kept e ↔ Verdict y z kept e := by
  cases h with
  | none => rfl
  | some h => cases z <;> simp only [Verdict, h.1, h.differ_iff]

theorem verdict_congr_after (h : Option.Rel Indistinct y z) (same : kept ↔ kept') :
    Verdict x y kept e ↔ Verdict x z kept' e := by
  have differ {s t u : Snapshot} (h : Indistinct t u) : Differ s t ↔ Differ s u :=
    ⟨fun d => (h.differ d.symm).symm, fun d => (h.symm.differ d.symm).symm⟩
  cases h with
  | none => cases x <;> simp only [Verdict, same]
  | some h => cases x <;> simp only [Verdict, h.1, differ h]

end

theorem diff_congr {old old' : Option Snapshot} {new new' : Snapshot}
    (same : ∀ q e, Verdict (old.bind (at? q)) (at? q new) (Kept new q) e ↔
      Verdict (old'.bind (at? q)) (at? q new') (Kept new' q) e) :
    diff old new = diff old' new' := by
  obtain ⟨es, sorted, entry, told⟩ := exists_entries old new
  obtain ⟨es', sorted', entry', told'⟩ := exists_entries old' new'
  have entries : es = es' := by
    refine (List.pairwise_map.1 sorted).eq_of_mem_iff (List.pairwise_map.1 sorted') ?_
    intro ⟨q, e⟩
    rw [entry, entry', same]
  rw [told, told', entries]

variable {a b : Snapshot}

namespace Interchangeable

theorem kept_imp (h : Interchangeable a b) {q : List String} (kept : Kept a q) : Kept b q := by
  rw [kept_iff] at kept ⊢
  rcases kept with root | ⟨s, hs, folder⟩
  · exact .inl root
  · have parent := h q.dropLast
    rw [hs] at parent
    generalize at? q.dropLast b = node at parent ⊢
    cases parent with
    | @some _ t alike => exact .inr ⟨t, rfl, alike.isFolder ▸ folder⟩

theorem symm (h : Interchangeable a b) : Interchangeable b a := by
  intro q
  have there := h q
  generalize at? q a = x, at? q b = y at there ⊢
  cases there with
  | none => exact .none
  | some alike => exact .some alike.symm

theorem diff_before (h : Interchangeable a b) (c : Snapshot) :
    diff (some a) c = diff (some b) c :=
  diff_congr fun q _ => verdict_congr_before (h q)

theorem diff_after (h : Interchangeable a b) (old : Option Snapshot) : diff old a = diff old b :=
  diff_congr fun q _ => verdict_congr_after (h q) ⟨h.kept_imp, h.symm.kept_imp⟩

end Interchangeable

theorem not_reports_of_silent (silent : diff (some a) b = []) (q : List String) (e : ChangeEvent) :
    ¬ Reports (some a) b q e := by
  obtain ⟨es, _, entry, told⟩ := diff_reports (some a) b
  have empty : es = [] := List.map_eq_nil_iff.1 (told.symm.trans silent)
  rw [← entry, empty]
  exact List.not_mem_nil

theorem interchangeable_of_silent (named : NamedAlike a b) (silent : diff (some a) b = []) :
    Interchangeable a b := by
  have nothing := not_reports_of_silent silent
  have alike {q : List String} {s t : Snapshot} (hs : at? q a = some s) (ht : at? q b = some t) :
      Indistinct s t := by
    obtain ⟨before, was⟩ := at?_eq_some_iff.1 hs
    obtain ⟨now, node⟩ := at?_eq_some_iff.1 ht
    exact ⟨named q s t before was now node,
      fun differ => nothing q _ (.changed now rfl before was node differ)⟩
  have unturned : Unturned a b := by
    intro q s t before was now node folder
    have same := alike (at?_eq_some_iff.2 ⟨before, was⟩) (at?_eq_some_iff.2 ⟨now, node⟩)
    exact same.isFolder ▸ folder
  intro q
  cases hs : at? q a with
  | none =>
    cases ht : at? q b with
    | none => exact .none
    | some t =>
      obtain ⟨now, node⟩ := at?_eq_some_iff.1 ht
      have missing : ¬ LiveIn (some a) q := fun live => at?_eq_none_iff.1 hs (liveIn_some.1 live)
      exact absurd (.created now missing node) (nothing q _)
  | some s =>
    cases ht : at? q b with
    | none =>
      -- what is gone would be told of itself or of something above it
      obtain ⟨p, e, _, _, deleted⟩ := exists_deleted_above unturned
        (at?_eq_some_iff.1 hs).1 (at?_eq_none_iff.1 ht)
      exact absurd deleted (nothing p e)
    | some t => exact .some (alike hs ht)

/-- Where a comparison finds nothing, the newer snapshot may take the place of the older one in
every other comparison, and in the middle of a sequence it may as well be left out. -/
theorem silent_poll_replaceable (named : NamedAlike a b) (silent : diff (some a) b = []) :
    (∀ c, diff (some a) c = diff (some b) c ∧ diff (some c) a = diff (some c) b) ∧
      ∀ later, changes a (b :: later) = changes a later := by
  have same := interchangeable_of_silent named silent
  refine ⟨fun c => ⟨same.diff_before c, same.diff_after (some c)⟩, ?_⟩
  intro later
  rw [changes, silent, List.nil_append]
  cases later with
  | nil => rfl
  | cons c later => rw [changes, changes, same.diff_before c]

def shelf : Snapshot :=
  .folder ⟨"d"⟩ ⟨1⟩ [("a", .file ⟨"d/a"⟩ ⟨1⟩ 5), ("b", .node ⟨⟨"d/b"⟩, false, some ⟨3⟩, 7, true⟩
    [("c", .file ⟨"d/b/c"⟩ ⟨1⟩ 0)])]

def shelfRestamped : Snapshot :=
  .node ⟨⟨"d"⟩, true, some ⟨9⟩, 4, true⟩ [("a", .node ⟨⟨"d/a"⟩, true, some ⟨1⟩, 5, false⟩
    [("x", .file ⟨"d/a/x"⟩ ⟨1⟩ 0)])]

def shelfRefilled : Snapshot :=
  .folder ⟨"d"⟩ ⟨10⟩ [("a", .file ⟨"d/a"⟩ ⟨8⟩ 5), ("b", .folder ⟨"d/b"⟩ ⟨8⟩ [])]

theorem restamped_shelf_replaceable :
    diff (some shelf) shelfRestamped = [] ∧
      diff (some shelf) shelfRefilled = diff (some shelfRestamped) shelfRefilled ∧
      diff (some shelfRefilled) shelf = diff (some shelfRefilled) shelfRestamped ∧
      changes shelf [shelfRestamped, shelfRefilled] = [.changed ⟨"d/a"⟩, .created ⟨"d/b"⟩] := by
  have named : NamedAlike shelf shelfRestamped := by decide +kernel
  have silent : diff (some shelf) shelfRestamped = [] := by decide +kernel
  obtain ⟨same, out⟩ := silent_poll_replaceable named silent
  obtain ⟨before, after⟩ := same shelfRefilled
  refine ⟨silent, before, after, ?_⟩
  rw [out]
  decide +kernel

end PathWatch.Snapshot
