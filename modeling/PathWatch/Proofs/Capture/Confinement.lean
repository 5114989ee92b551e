import PathWatch.Proofs.Capture.Failures

/-! A descendant that cannot be read leaves its mark at its own place alone: there the
snapshot keeps what was known, and everywhere else it shows what there is. -/
namespace PathWatch

open Snapshot

variable {H σ : Type}

namespace Capture

variable {q : Queries H Unit} {recursive : Bool} {depth : Nat} {h : H} {previous : Option Snapshot}

theorem descend?_of_failsAt {names : List String} {d : H} {e : FsError} {snapshot : Snapshot}
    (orderly : q.Orderly recursive (· ≠ ·) depth h) (hp : ∀ p ∈ previous, p.Consistent)
    (ok : (visit q recursive depth h previous ()).result = .ok snapshot)
    (fails : q.FailsAt recursive h names d e) :
    descend? names snapshot = previous.bind (at? names) := by
  obtain ⟨below, reaches, fails⟩ := fails
  induction reaches generalizing depth previous snapshot with
  | here => exact absurd rfl below
  | @child h c d names listed reaches ih =>
    obtain ⟨depth, rfl⟩ := exists_depth orderly
    obtain ⟨distinct, children⟩ := orderly
    obtain ⟨depth, rfl⟩ := exists_depth (children c listed)
    rw [snapshot_of_ok ok, bind_at?_namesake, descend?, child?, Snapshot.children,
      lookup_gathered listed distinct]
    have known (p : Snapshot) (found : namesake previous (q.name c) = some p) :=
      namesake_consistent hp found
    cases names with
    | nil =>
      cases reaches with
      | here =>
        rw [visit_of_fails fails, Visit.failed, shown]
        refine Option.bind_congr fun p hp' => ?_
        exact ((known p hp').2.at?_eq (known p hp').1 []).symm
    | cons name names =>
      obtain ⟨_, further⟩ := exists_listed reaches (List.cons_ne_nil name names)
      have readable := readable_of_listed further
      rw [shown_of_readable readable, if_pos (present_of_listed further), Option.bind_some]
      refine ih (children c listed) (fun p hp' => (known p hp').2) ?_ (List.cons_ne_nil name names)
        fails
      rw [visit_of_readable readable]

theorem facts_descend? {names : List String} {snapshot : Snapshot}
    (orderly : q.Orderly recursive (· ≠ ·) depth h)
    (ok : (visit q recursive depth h previous ()).result = .ok snapshot)
    (clear : ∀ r d e, q.FailsAt recursive h r d e → ¬ r <+: names) (f : Facts) :
    (descend? names snapshot).map facts = some f ↔
      ∃ d, q.Reaches recursive h names d ∧ q.factsOf recursive d = f ∧
        (names = [] ∨ f.present = true) := by
  induction names generalizing h depth previous snapshot with
  | nil =>
    obtain ⟨depth, rfl⟩ := exists_depth orderly
    rw [snapshot_of_ok ok]
    simp [reaches_nil_iff, descend?, facts]
  | cons name names ih =>
    obtain ⟨depth, rfl⟩ := exists_depth orderly
    obtain ⟨distinct, children⟩ := orderly
    rw [snapshot_of_ok ok, descend?, child?, Snapshot.children]
    by_cases child : ∃ c ∈ q.listing recursive h, q.name c = name
    · obtain ⟨c, listed, rfl⟩ := child
      obtain ⟨depth, rfl⟩ := exists_depth (children c listed)
      have readable : ∀ e, ¬ q.Fails recursive c e := by
        intro e fails
        exact clear [q.name c] c e ⟨List.cons_ne_nil _ _, .child listed (.here c), fails⟩
          (List.cons_prefix_cons.2 ⟨rfl, List.nil_prefix⟩)
      rw [lookup_gathered listed distinct, shown_of_readable readable]
      simp only [reaches_child_iff listed distinct, reduceCtorEq, false_or]
      by_cases present : (q.factsOf recursive c).present = true
      · rw [if_pos present, Option.bind_some]
        have seen := congrArg Visit.result
          (visit_of_readable readable depth (namesake previous (q.name c)))
        rw [ih (children c listed) seen]
        · refine exists_congr fun d => and_congr_right fun below => and_congr_right fun same => ?_
          refine or_iff_right_of_imp fun here => ?_
          subst here
          rw [← same, reaches_nil_iff.1 below, present]
        · intro r d e fails above
          exact clear (q.name c :: r) d e (failsAt_child listed fails)
            (List.cons_prefix_cons.2 ⟨rfl, above⟩)
      · rw [if_neg present]
        refine iff_of_false (by simp) ?_
        intro found
        obtain ⟨d, below, rfl, there⟩ := found
        cases names with
        | nil => exact present (reaches_nil_iff.1 below ▸ there)
        | cons name names =>
          obtain ⟨_, further⟩ := exists_listed below (List.cons_ne_nil name names)
          exact present (present_of_listed further)
    · rw [lookup_gathered_of_forall_ne fun c listed same => child ⟨c, listed, same⟩]
      refine iff_of_false (by simp) ?_
      intro found
      obtain ⟨d, reaches, _⟩ := found
      obtain ⟨c, listed, same, _⟩ := reaches_cons_iff.1 reaches
      exact child ⟨c, listed, same⟩

theorem at?_of_failsAt {names : List String} {d : H} {e : FsError} {snapshot : Snapshot}
    (orderly : q.Orderly recursive (· ≠ ·) depth h) (hp : ∀ p ∈ previous, p.Consistent)
    (ok : (visit q recursive depth h previous ()).result = .ok snapshot)
    (fails : q.FailsAt recursive h names d e) (rest : List String) :
    at? (names ++ rest) snapshot = previous.bind (at? (names ++ rest)) := by
  have kept := descend?_of_failsAt orderly hp ok fails
  obtain ⟨name, names, rfl⟩ := List.exists_cons_of_ne_nil fails.1
  rw [← (visit_consistent hp ok).at?_cons_eq] at kept
  rw [at?_append, kept, Option.bind_assoc]
  exact Option.bind_congr fun p _ => (at?_append _ rest p).symm

theorem exists_entries_off_failures {snapshot : Snapshot}
    (orderly : q.Orderly recursive (· ≠ ·) depth h) (hp : ∀ p ∈ previous, p.Consistent)
    (ok : (visit q recursive depth h previous ()).result = .ok snapshot) :
    ∃ es : List (List String × ChangeEvent), diff previous snapshot = es.map Prod.snd ∧
      (∀ names e, (names, e) ∈ es ↔ Reports previous snapshot names e) ∧
      ∀ names d e, q.FailsAt recursive h names d e → ∀ x ∈ es, ¬ names <+: x.1 := by
  obtain ⟨es, _, entry, told⟩ := exists_entries previous snapshot
  refine ⟨es, told, ?_, ?_⟩
  · intro names e
    rw [entry, reports_iff]
  · intro names d e fails x hx below
    obtain ⟨rest, path⟩ := below
    have verdict := (entry x.1 x.2).1 hx
    rw [← path, at?_of_failsAt orderly hp ok fails rest] at verdict
    exact not_verdict_self _ _ _ verdict

section

variable {q : Queries H σ} {S : σ → Prop} {s : σ} {recursive : Bool} {depth : Nat} {h : H}
  {previous : Option Snapshot}

/-- A capture fails exactly with a failure of the path itself, and what was known before has no part
in that and in the failures that it lists, which are those of the descendants that cannot be read.
At these the snapshot holds what was known, so no change is told there, and everywhere else it shows
what there is. -/
theorem failures_confined (steady : q.Steady S) (hs : S s)
    (orderly : (q.frozen s).Orderly recursive (· ≠ ·) depth h)
    (hp : ∀ p ∈ previous, p.Consistent) :
    let a := q.frozen s
    let v := visit q recursive depth h previous s
    (∀ e, v.result = .error e ↔ a.Fails recursive h e) ∧
    (∀ other, let w := visit q recursive depth h other s
      w.failures = v.failures ∧ ∀ e, w.result = .error e ↔ v.result = .error e) ∧
    (∀ f, f ∈ v.failures ↔
      ∃ names d, a.FailsAt recursive h names d f.error ∧ f.file = a.id d) ∧
    ∀ snapshot, v.result = .ok snapshot →
      (∀ names d e, a.FailsAt recursive h names d e →
        descend? names snapshot = previous.bind (at? names)) ∧
      (∃ es : List (List String × ChangeEvent), diff previous snapshot = es.map Prod.snd ∧
        (∀ names e, (names, e) ∈ es ↔ Reports previous snapshot names e) ∧
        ∀ names d e, a.FailsAt recursive h names d e → ∀ x ∈ es, ¬ names <+: x.1) ∧
      ∀ names, (∀ r d e, a.FailsAt recursive h r d e → ¬ r <+: names) → ∀ f,
        (descend? names snapshot).map facts = some f ↔ ∃ d, a.Reaches recursive h names d ∧
          a.factsOf recursive d = f ∧ (names = [] ∨ f.present = true) := by
  intro a v
  have bare (other : Option Snapshot) := bare_visit steady hs recursive depth h other hs
  have result (other : Option Snapshot) : (visit q recursive depth h other s).result =
      (visit a recursive depth h other ()).result := congrArg Visit.result (bare other)
  have failures (other : Option Snapshot) : (visit q recursive depth h other s).failures =
      (a.failuresBelow recursive depth h).map Prod.snd :=
    (congrArg Visit.failures (bare other)).trans (visit_failures orderly other)
  have error (other : Option Snapshot) (e : FsError) :
      (visit q recursive depth h other s).result = .error e ↔ a.Fails recursive h e := by
    obtain ⟨d, rfl⟩ := exists_depth orderly
    rw [result, result_eq_error_iff]
  refine ⟨error previous, ?_, ?_, ?_⟩
  · intro other
    exact ⟨(failures other).trans (failures previous).symm,
      fun e => (error other e).trans (error previous e).symm⟩
  · intro f
    rw [failures, List.mem_map]
    constructor
    · intro listed
      obtain ⟨⟨names, _⟩, hx, rfl⟩ := listed
      exact ⟨names, (Queries.mem_failuresBelow orderly).1 hx⟩
    · intro fails
      obtain ⟨names, below⟩ := fails
      exact ⟨(names, f), (Queries.mem_failuresBelow orderly).2 below, rfl⟩
  · intro snapshot ok
    rw [result] at ok
    exact ⟨fun names d e fails => descend?_of_failsAt orderly hp ok fails,
      exists_entries_off_failures orderly hp ok,
      fun names clear f => facts_descend? orderly ok clear f⟩

end

inductive Sample
  | root
  | bad
  | gone
  | good
deriving DecidableEq

def Sample.answers : Queries Sample Nat where
  id
    | .root => ⟨"d"⟩
    | .bad => ⟨"d/bad"⟩
    | .gone => ⟨"d/gone"⟩
    | .good => ⟨"d/good"⟩
  name
    | .root => "d"
    | .bad => "bad"
    | .gone => "gone"
    | .good => "good"
  isPresent h n := (if h = .bad then .error (.unavailable "d/bad") else .ok true, n + 1)
  modified h n := (if h = .gone then .error (.notFound "d/gone") else .ok ⟨2⟩, n + 1)
  isFolder h n := (.ok (h = .root), n + 1)
  size _ n := (.ok 5, n + 1)
  children _ n := (.ok [.good, .bad, .gone], n + 1)

theorem Sample.steady : answers.Steady fun _ => True where
  within :=
    { refl _ h := h
      trans h h' hs := h' (h hs)
      isPresent _ _ h := h
      modified _ _ h := h
      isFolder _ _ h := h
      size _ _ h := h
      children _ _ h := h }
  same _ _ _ _ := rfl

def badBefore : Snapshot := .folder ⟨"d/bad"⟩ ⟨1⟩ [("x", .file ⟨"d/bad/x"⟩ ⟨1⟩ 0)]

theorem bad_child_kept :
    let v := visit Sample.answers true 2 .root (some (.folder ⟨"d"⟩ ⟨1⟩ [("bad", badBefore)])) 7
    ∃ snapshot, v.result = .ok snapshot ∧ descend? ["bad"] snapshot = some badBefore ∧
      ⟨⟨"d/bad"⟩, .unavailable "d/bad"⟩ ∈ v.failures := by
  intro v
  have orderly : (Sample.answers.frozen 7).Orderly true (· ≠ ·) 2 .root := by decide
  have consistent : ∀ p ∈ some (Snapshot.folder ⟨"d"⟩ ⟨1⟩ [("bad", badBefore)]), p.Consistent := by
    intro p hp
    cases hp
    simp [badBefore, folder, file, Snapshot.Consistent, Snapshot.Consistent.AllConsistent,
      Keyed.Ordered, present, facts]
  have fails : (Sample.answers.frozen 7).FailsAt true .root ["bad"] .bad (.unavailable "d/bad") :=
    ⟨List.cons_ne_nil _ _, .child (c := Sample.bad) (by decide) (.here _), rfl, rfl⟩
  obtain ⟨_, _, listed, confined⟩ := failures_confined Sample.steady trivial orderly consistent
  have ok : v.result = .ok _ := rfl
  obtain ⟨kept, _, _⟩ := confined _ ok
  exact ⟨_, ok, kept _ _ _ fails, (listed _).2 ⟨_, _, fails, rfl⟩⟩

end Capture

end PathWatch
