import Mathlib.Data.Set.Card
import PathWatch.Proofs.Capture.Confinement
import PathWatch.Proofs.Memory.Answers
import PathWatch.Proofs.Memory.World
import PathWatch.Proofs.Snapshot.Paths

/-! A capture of a path in memory is exact: it has a node for each path that exists, and
where something fails it has what was known before. -/
namespace PathWatch

theorem Capture.isOk_strict_iff {σ : Type} {v : Visit σ} :
    (strict v).isOk = true ↔ v.result.isOk = true ∧ v.failures = [] := by
  obtain ⟨result, failures, after⟩ := v
  rw [strict]
  dsimp only
  cases hf : failures.getLast? with
  | none => simp [List.getLast?_eq_none_iff.1 hf]
  | some f =>
    have some : failures ≠ [] := by
      rintro rfl
      cases hf
    refine iff_of_false ?_ fun both => some both.2
    cases result <;> nofun

namespace Memory

open Snapshot

variable {s : Store} {p : Path} {depth : Nat} {previous : Option Snapshot} {snapshot : Snapshot}

theorem DeepEnough.of_height (deep : s.height < depth) (p : Path) : DeepEnough s p depth := by
  refine ⟨by omega, ?_⟩
  intro r n hr below
  have bound := (deepEnough_height s p).2 r n hr below
  omega

namespace Store

def capture (s : Store) (depth : Nat) (p : Path) (previous : Option Snapshot) : Visit Store :=
  Capture.visit (queries fun t : Store => t) true depth p previous s

theorem bare_capture (s : Store) (depth : Nat) (p : Path) (previous : Option Snapshot) :
    (s.capture depth p previous).bare = Capture.visit s.answers true depth p previous () :=
  Capture.bare_visit s.steady_queries rfl true depth p previous rfl

theorem capture_absent (deep : DeepEnough s p depth) (ok : p ∉ s.failing)
    (absent : s.contains p = false) (previous : Option Snapshot) :
    s.capture depth p previous = .found (.missing p.id) s := by
  have hn : s.node? p = none := by simpa [contains] using absent
  obtain ⟨d, rfl⟩ := Nat.exists_eq_add_one.2 deep.1
  rw [capture, Capture.visit, look_absent _ _ _ ok hn]
  rfl

theorem nodeCount_eq (consistent : snapshot.Consistent)
    (shows : ∀ names, (descend? names snapshot).map facts = s.facts? (p ++ names)) :
    snapshot.nodeCount = {q : Path | s.contains q = true ∧ p <+: q}.ncard := by
  have apart : (snapshot.paths.map (p ++ ·)).Nodup :=
    consistent.nodup_paths.map fun _ _ => List.append_cancel_left
  have found (names : List String) : names ∈ snapshot.paths ↔ s.contains (p ++ names) = true := by
    rw [consistent.mem_paths_iff, ← Option.isSome_iff_exists, ← Option.isSome_map, shows, facts?,
      Option.isSome_map]
    rfl
  have same : {q : Path | s.contains q = true ∧ p <+: q} = (snapshot.paths.map (p ++ ·)).toFinset := by
    ext q
    rw [Finset.mem_coe, List.mem_toFinset, List.mem_map]
    constructor
    · intro both
      obtain ⟨there, names, rfl⟩ := both
      exact ⟨names, (found names).2 there, rfl⟩
    · intro listed
      obtain ⟨names, mem, rfl⟩ := listed
      exact ⟨(found names).1 mem, List.prefix_append p names⟩
  rw [same, Set.ncard_coe_finset, List.toFinset_card_of_nodup apart, List.length_map, length_paths]

namespace Tree

theorem seen_capture (tree : s.Tree) (deep : DeepEnough s p depth) (ok : p ∉ s.failing)
    (previous : Option Snapshot) : ∃ snapshot, (s.capture depth p previous).result = .ok snapshot ∧
      ∀ names, (at? names snapshot).map facts = seen s p previous names :=
  visit_seen tree deep ok previous

theorem failures_capture (tree : s.Tree) (ordered : s.Ordered) (deep : DeepEnough s p depth)
    (ok : p ∉ s.failing) (previous : Option Snapshot) : ∃ fs : List Path,
      (s.capture depth p previous).failures = fs.map (fun f => ⟨f.id, .unavailable f.idText⟩) ∧
      (∀ f, f ∈ fs ↔ Foremost s p f) ∧ fs.Pairwise Earlier := by
  have inOrder := orderly tree ordered deep
  have mem (x : List String × Failure) : x ∈ s.answers.failuresBelow true depth p ↔
      ∃ d, s.answers.FailsAt true p x.1 d x.2.error ∧ x.2.file = Path.id d :=
    Queries.mem_failuresBelow inOrder
  have bare := congrArg Visit.failures (bare_capture s depth p previous)
  refine ⟨(s.answers.failuresBelow true depth p).map fun x => p ++ x.1, ?_, ?_, ?_⟩
  · refine (bare.trans (Capture.visit_failures inOrder previous)).trans ?_
    rw [List.map_map]
    refine List.map_congr_left fun x hx => ?_
    obtain ⟨d, fails, file⟩ := (mem x).1 hx
    obtain ⟨rfl, error, _⟩ := (tree.failsAt_iff ok).1 fails
    obtain ⟨names, ⟨id, e⟩⟩ := x
    dsimp only at file error
    rw [file, error]
    rfl
  · intro f
    rw [List.mem_map]
    constructor
    · intro listed
      obtain ⟨x, hx, rfl⟩ := listed
      obtain ⟨d, fails, _⟩ := (mem x).1 hx
      obtain ⟨rfl, _, foremost⟩ := (tree.failsAt_iff ok).1 fails
      exact foremost
    · intro foremost
      obtain ⟨names, rfl⟩ := foremost.below
      have fails := (tree.failsAt_iff ok).2 ⟨rfl, rfl, foremost⟩
      exact ⟨(names, ⟨Path.id (p ++ names), _⟩), (mem _).2 ⟨_, fails, rfl⟩, rfl⟩
  · have sorted := Queries.failuresBelow_sorted inOrder
    rw [List.pairwise_map] at sorted ⊢
    exact sorted.imp fun less => Earlier.of_lt (List.append_left_lt less)

theorem facts_descend? (tree : s.Tree) (deep : DeepEnough s p depth) (ok : p ∉ s.failing)
    (there : s.contains p = true) (hp : ∀ q ∈ previous, q.Consistent)
    (result : (s.capture depth p previous).result = .ok snapshot) {names : List String}
    (clear : ∀ f, Foremost s p f → ¬ f <+: p ++ names) :
    (descend? names snapshot).map facts = s.facts? (p ++ names) := by
  obtain ⟨_, same, shows⟩ := tree.seen_capture deep ok previous
  cases result.symm.trans same
  have present : snapshot.present = true := by
    obtain ⟨n, hn⟩ := Option.isSome_iff_exists.1 there
    have root := (shows []).trans (seen_self ok previous)
    rw [facts?, hn, at?_nil] at root
    split at root
    · assumption
    · cases root
  have consistent : snapshot.Consistent := Capture.visit_consistent hp result
  rw [← consistent.at?_eq present]
  refine (shows names).trans (if_neg ?_)
  intro hidden
  rcases hidden with failing | ⟨r, failing, found, below, _, above⟩
  · exact ok failing
  · obtain ⟨f, foremost, before⟩ := tree.exists_foremost ok failing found below
    exact clear f foremost (before.trans above)

theorem descend?_of_foremost (tree : s.Tree) (ordered : s.Ordered) (deep : DeepEnough s p depth)
    (ok : p ∉ s.failing) (hp : ∀ q ∈ previous, q.Consistent)
    (result : (s.capture depth p previous).result = .ok snapshot) {names : List String}
    (foremost : Foremost s p (p ++ names)) :
    descend? names snapshot = previous.bind (at? names) := by
  have bare := congrArg Visit.result (bare_capture s depth p previous)
  have distinct := (orderly tree ordered deep).mono fun _ _ less => ne_of_lt less
  exact Capture.descend?_of_failsAt distinct hp (bare.symm.trans result)
    ((tree.failsAt_iff ok).2 ⟨rfl, rfl, foremost⟩)

theorem isOk_strict_capture (tree : s.Tree) (ordered : s.Ordered) (deep : DeepEnough s p depth) :
    (Capture.strict (s.capture depth p none)).isOk = true ↔
      p ∉ s.failing ∧ ∀ f ∈ s.failing, s.contains f = true → ¬ p <+: f := by
  rw [Capture.isOk_strict_iff]
  by_cases failing : p ∈ s.failing
  · obtain ⟨d, rfl⟩ := Nat.exists_eq_add_one.2 deep.1
    have failed : (s.capture (d + 1) p none).result = .error (.unavailable p.idText) :=
      visit_failing failing true d none
    rw [failed]
    exact iff_of_false nofun fun both => both.1 failing
  · obtain ⟨snapshot, result, _⟩ := tree.seen_capture deep failing none
    obtain ⟨fs, failures, mem, _⟩ := tree.failures_capture ordered deep failing none
    rw [result, failures, List.map_eq_nil_iff, List.eq_nil_iff_forall_not_mem]
    constructor
    · intro both
      refine ⟨failing, fun f hf there below => ?_⟩
      obtain ⟨r, foremost, _⟩ := tree.exists_foremost failing hf there below
      exact both.2 r ((mem r).2 foremost)
    · intro both
      refine ⟨rfl, fun f hf => ?_⟩
      have foremost := (mem f).1 hf
      exact both.2 f foremost.failing foremost.there foremost.below

end Tree

/-- A capture of a path that does not fail names the failing paths below it that come first on the
way to them, shows what there is outside of these and holds there what was known before. -/
theorem capture_exact (ops : List Op) (p : Path) (deep : (empty.run ops).height < depth) :
    let s := empty.run ops
    let v := s.capture depth p
    (p ∉ s.failing → ∀ previous : Option Snapshot, (∀ q ∈ previous, q.Consistent) →
      (s.contains p = false →
        (v previous).result = .ok (.missing p.id) ∧ (v previous).failures = []) ∧
      (s.contains p = true → ∃ snapshot, ∃ fs : List Path,
        (v previous).result = .ok snapshot ∧ snapshot.Consistent ∧
        (v previous).failures = fs.map (fun f => ⟨f.id, .unavailable f.idText⟩) ∧
        (∀ f, f ∈ fs ↔ Foremost s p f) ∧ fs.Pairwise Earlier ∧
        (∀ names, (∀ f ∈ fs, ¬ f <+: p ++ names) →
          (descend? names snapshot).map facts = s.facts? (p ++ names)) ∧
        (∀ names, p ++ names ∈ fs → descend? names snapshot = previous.bind (at? names)) ∧
        ((∀ f ∈ s.failing, s.contains f = true → ¬ p <+: f) →
          snapshot.nodeCount = {q : Path | s.contains q = true ∧ p <+: q}.ncard))) ∧
    ((Capture.strict (v none)).isOk = true ↔
      p ∉ s.failing ∧ ∀ f ∈ s.failing, s.contains f = true → ¬ p <+: f) := by
  intro s v
  have tree : s.Tree := tree_run ops
  have ordered : s.Ordered := ordered_run ops
  have deepEnough : DeepEnough s p depth := .of_height deep p
  refine ⟨fun ok previous hp => ⟨?_, ?_⟩, tree.isOk_strict_capture ordered deepEnough⟩
  · intro absent
    have missing : v previous = .found (.missing p.id) s :=
      capture_absent deepEnough ok absent previous
    rw [missing]
    exact ⟨rfl, rfl⟩
  · intro there
    obtain ⟨snapshot, result, _⟩ := tree.seen_capture deepEnough ok previous
    obtain ⟨fs, failures, mem, sorted⟩ := tree.failures_capture ordered deepEnough ok previous
    have consistent : snapshot.Consistent := Capture.visit_consistent hp result
    have shows {names : List String} (clear : ∀ f, Foremost s p f → ¬ f <+: p ++ names) :
        (descend? names snapshot).map facts = s.facts? (p ++ names) :=
      tree.facts_descend? deepEnough ok there hp result clear
    refine ⟨snapshot, fs, result, consistent, failures, mem, sorted, ?_, ?_, ?_⟩
    · intro names clear
      exact shows fun f foremost => clear f ((mem f).2 foremost)
    · intro names listed
      exact tree.descend?_of_foremost ordered deepEnough ok hp result ((mem _).1 listed)
    · intro none
      refine nodeCount_eq consistent fun names => shows fun f foremost _ => ?_
      exact none f foremost.failing foremost.there foremost.below

def shutFolder : List Op :=
  [.write "/d/a/x" .empty, .write "/d/b" .empty, .setFailing "/d/a" true]

def shutBefore : Snapshot := .folder ⟨"mem:///d/a"⟩ ⟨3⟩ [("x", .file ⟨"mem:///d/a/x"⟩ ⟨4⟩ 0)]

theorem shut_folder_kept :
    let v := (empty.run shutFolder).capture 4 ["d"]
      (some (.folder ⟨"mem:///d"⟩ ⟨2⟩ [("a", shutBefore)]))
    ∃ snapshot, v.result = .ok snapshot ∧ descend? ["a"] snapshot = some shutBefore ∧
      (descend? ["b"] snapshot).map facts = (empty.run shutFolder).facts? ["d", "b"] ∧
      ⟨⟨"mem:///d/a"⟩, .unavailable "mem:///d/a"⟩ ∈ v.failures := by
  intro v
  have consistent : ∀ q ∈ some (Snapshot.folder ⟨"mem:///d"⟩ ⟨2⟩ [("a", shutBefore)]),
      q.Consistent := by
    intro q hq
    cases hq
    simp [shutBefore, folder, file, Snapshot.Consistent, Snapshot.Consistent.AllConsistent,
      Keyed.Ordered, present, facts]
  have failing {r : Path} (hr : r ∈ (empty.run shutFolder).failing) : r = ["d", "a"] :=
    List.mem_singleton.1 hr
  have foremost : Foremost (empty.run shutFolder) ["d"] ["d", "a"] :=
    ⟨List.mem_singleton.2 rfl, rfl, ⟨["a"], rfl⟩, by decide, fun r hr _ _ _ => failing hr⟩
  have ok : ["d"] ∉ (empty.run shutFolder).failing := fun h => by cases failing h
  have deep : (empty.run shutFolder).height < 4 := Nat.le_refl 4
  obtain ⟨exact, _⟩ := capture_exact shutFolder ["d"] deep
  obtain ⟨snapshot, fs, result, _, failures, mem, _, shows, kept, _⟩ :=
    (exact ok _ consistent).2 rfl
  have listed : ["d", "a"] ∈ fs := (mem _).2 foremost
  refine ⟨snapshot, result, kept ["a"] listed, shows ["b"] ?_, ?_⟩
  · intro f hf above
    rw [failing ((mem f).1 hf).failing] at above
    exact absurd above (by decide)
  · exact failures ▸ List.mem_map.2 ⟨_, listed, rfl⟩

end Store

end Memory

end PathWatch
