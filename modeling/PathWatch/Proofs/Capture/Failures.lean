import PathWatch.Proofs.Capture.Inspect

/-! The failures that a capture lists are those of the descendants that cannot be read,
in the order of the tree, whatever was known before. -/
namespace PathWatch

variable {H : Type}

namespace Queries

section

variable (q : Queries H Unit) (recursive : Bool)

def ownFailure (h : H) : List Failure :=
  match q.inspect recursive h with
  | .error e => if e.isNotFound then [] else [⟨q.id h, e⟩]
  | .ok _ => []

/-- The failures below a path, each with the names that lead to it, depth first. -/
def failuresBelow : Nat → H → List (List String × Failure)
  | 0, _ => []
  | depth + 1, h => (q.listing recursive h).flatMap fun c =>
    let own : List (List String × Failure) := (q.ownFailure recursive c).map fun f => ([], f)
    (own ++ failuresBelow depth c).map fun x => (q.name c :: x.1, x.2)

end

variable {q : Queries H Unit} {recursive : Bool} {h : H}

theorem ownFailure_of_fails {e : FsError} (fails : q.Fails recursive h e) :
    q.ownFailure recursive h = [⟨q.id h, e⟩] := by
  rw [ownFailure, fails.1]
  exact if_neg (by simp [fails.2])

theorem ownFailure_of_readable (readable : ∀ e, ¬ q.Fails recursive h e) :
    q.ownFailure recursive h = [] := by
  rw [ownFailure]
  cases hi : q.inspect recursive h with
  | error e =>
    cases gone : e.isNotFound with
    | true => exact if_pos gone
    | false => exact absurd ⟨hi, gone⟩ (readable e)
  | ok found => rfl

theorem mem_ownFailure {f : Failure} :
    f ∈ q.ownFailure recursive h ↔ q.Fails recursive h f.error ∧ f.file = q.id h := by
  by_cases readable : ∀ e, ¬ q.Fails recursive h e
  · rw [ownFailure_of_readable readable]
    exact iff_of_false List.not_mem_nil fun both => readable _ both.1
  · obtain ⟨e, fails⟩ := not_forall_not.1 readable
    rw [ownFailure_of_fails fails, List.mem_singleton]
    constructor
    · intro same
      rw [same]
      exact ⟨fails, rfl⟩
    · intro both
      obtain ⟨id, e'⟩ := f
      obtain ⟨fails', rfl⟩ := both
      cases fails.1.symm.trans fails'.1
      rfl

theorem mem_failuresBelow_succ {depth : Nat} {names : List String} {f : Failure} :
    (names, f) ∈ q.failuresBelow recursive (depth + 1) h ↔
      ∃ c ∈ q.listing recursive h, ∃ r, names = q.name c :: r ∧
        (r = [] ∧ f ∈ q.ownFailure recursive c ∨ (r, f) ∈ q.failuresBelow recursive depth c) := by
  rw [failuresBelow, List.mem_flatMap]
  refine exists_congr fun c => and_congr_right fun _ => ?_
  simp only [List.mem_map, List.mem_append, Prod.mk.injEq, Prod.exists]
  constructor
  · intro found
    obtain ⟨r, f', mem, rfl, rfl⟩ := found
    refine ⟨r, rfl, mem.imp_left ?_⟩
    intro own
    obtain ⟨f', hf, rfl, rfl⟩ := own
    exact ⟨rfl, hf⟩
  · intro found
    obtain ⟨r, rfl, mem⟩ := found
    refine ⟨r, f, mem.imp_left ?_, rfl, rfl⟩
    intro own
    exact ⟨f, own.2, own.1.symm, rfl⟩

theorem mem_failuresBelow {before : String → String → Prop} {depth : Nat}
    (orderly : q.Orderly recursive before depth h) {names : List String} {f : Failure} :
    (names, f) ∈ q.failuresBelow recursive depth h ↔
      ∃ d, q.FailsAt recursive h names d f.error ∧ f.file = q.id d := by
  induction depth generalizing h names with
  | zero => exact orderly.elim
  | succ depth ih =>
    rw [mem_failuresBelow_succ]
    constructor
    · intro found
      obtain ⟨c, listed, r, rfl, ⟨rfl, own⟩ | below⟩ := found
      · obtain ⟨fails, file⟩ := mem_ownFailure.1 own
        exact ⟨c, ⟨List.cons_ne_nil _ _, .child listed (.here c), fails⟩, file⟩
      · obtain ⟨d, fails, file⟩ := (ih (orderly.2 c listed)).1 below
        exact ⟨d, Capture.failsAt_child listed fails, file⟩
    · intro found
      obtain ⟨d, ⟨below, reaches, fails⟩, file⟩ := found
      cases reaches with
      | here => exact absurd rfl below
      | @child _ c _ r listed reaches =>
        refine ⟨c, listed, r, rfl, ?_⟩
        by_cases last : r = []
        · subst last
          rw [Capture.reaches_nil_iff.1 reaches] at fails file
          exact .inl ⟨rfl, mem_ownFailure.2 ⟨fails, file⟩⟩
        · exact .inr ((ih (orderly.2 c listed)).2 ⟨d, ⟨last, reaches, fails⟩, file⟩)

theorem failuresBelow_sorted {before : String → String → Prop} {depth : Nat}
    (orderly : q.Orderly recursive before depth h) :
    ((q.failuresBelow recursive depth h).map Prod.fst).Pairwise (List.Lex before) := by
  induction depth generalizing h with
  | zero => exact orderly.elim
  | succ depth ih =>
    rw [List.pairwise_map, failuresBelow, List.pairwise_flatMap]
    constructor
    · intro c listed
      rw [List.pairwise_map, List.pairwise_append]
      have below := List.pairwise_map.1 (ih (orderly.2 c listed))
      refine ⟨?_, below.imp List.Lex.cons, ?_⟩
      · rw [List.pairwise_map]
        by_cases readable : ∀ e, ¬ q.Fails recursive c e
        · rw [ownFailure_of_readable readable]
          exact .nil
        · obtain ⟨e, fails⟩ := not_forall_not.1 readable
          rw [ownFailure_of_fails fails]
          exact List.pairwise_singleton _ _
      · intro x hx y hy
        obtain ⟨_, _, rfl⟩ := List.mem_map.1 hx
        obtain ⟨_, fails, _⟩ := (mem_failuresBelow (orderly.2 c listed)).1 hy
        obtain ⟨name, names, e⟩ := List.exists_cons_of_ne_nil fails.1
        rw [e]
        exact .cons .nil
    · refine orderly.1.imp ?_
      intro c d less x hx y hy
      obtain ⟨_, _, rfl⟩ := List.mem_map.1 hx
      obtain ⟨_, _, rfl⟩ := List.mem_map.1 hy
      exact .rel less

end Queries

namespace Capture

variable {q : Queries H Unit} {recursive : Bool} {depth : Nat} {h : H}

theorem failuresAt_visit {c : H} (listed : ∃ d, depth = d + 1)
    (prior : Option Snapshot) :
    failuresAt (q.id c) (visit q recursive depth c prior ()) =
      q.ownFailure recursive c ++ (visit q recursive depth c prior ()).failures := by
  obtain ⟨depth, rfl⟩ := listed
  by_cases readable : ∀ e, ¬ q.Fails recursive c e
  · rw [visit_of_readable readable, Queries.ownFailure_of_readable readable]
    rfl
  · obtain ⟨e, fails⟩ := not_forall_not.1 readable
    rw [visit_of_fails fails, Queries.ownFailure_of_fails fails]
    rfl

theorem visit_failures {before : String → String → Prop}
    (orderly : q.Orderly recursive before depth h) (previous : Option Snapshot) :
    (visit q recursive depth h previous ()).failures =
      (q.failuresBelow recursive depth h).map Prod.snd := by
  induction depth generalizing h previous with
  | zero => exact orderly.elim
  | succ depth ih =>
    rw [Queries.failuresBelow]
    by_cases readable : ∀ e, ¬ q.Fails recursive h e
    · have still : ∀ h prior, (visit q recursive depth h prior ()).after = () := fun _ _ => rfl
      rw [visit_of_readable readable, gathered, gather_failures still _ _ _ rfl, List.nil_append,
        List.map_flatMap]
      refine List.flatMap_congr fun c listed => ?_
      rw [failuresAt_visit (exists_depth (orderly.2 c listed)), ih (orderly.2 c listed)]
      simp [Function.comp_def]
    · obtain ⟨e, fails⟩ := not_forall_not.1 readable
      rw [visit_of_fails fails, listing_of_fails fails]
      rfl

end Capture

end PathWatch
