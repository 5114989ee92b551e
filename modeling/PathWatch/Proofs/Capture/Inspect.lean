import Mathlib.Data.List.Nodup
import PathWatch.Proofs.Capture.Consistent
import PathWatch.Proofs.Capture.Steady
import PathWatch.Proofs.Diff

/-! What the answers of a path and of those below it say, each on its own, and how a
capture is put together from them. -/
namespace PathWatch

open Snapshot

variable {H σ : Type}

inductive Finding (H : Type)
  | absent
  | file (modified : Time) (size : Nat)
  | folder (modified : Time) (listing : List H)

namespace Queries

section

variable (q : Queries H Unit) (recursive : Bool)

/-- The questions that are put to a path itself, in their order, up to the first that fails. -/
def inspect (h : H) : Except FsError (Finding H) := do
  if ← (q.isPresent h ()).1 then
    let t ← (q.modified h ()).1
    if ← (q.isFolder h ()).1 then
      if recursive then return .folder t (← (q.children h ()).1) else return .folder t []
    else return .file t (← (q.size h ()).1)
  else return .absent

def listing (h : H) : List H :=
  match q.inspect recursive h with
  | .ok (.folder _ hs) => hs
  | _ => []

def factsOf (h : H) : Facts :=
  match q.inspect recursive h with
  | .ok (.file t n) => ⟨q.id h, true, some t, n, false⟩
  | .ok (.folder t _) => ⟨q.id h, true, some t, 0, true⟩
  | _ => ⟨q.id h, false, none, 0, false⟩

/-- A question to the path itself fails, and not because the path is gone. -/
def Fails (h : H) (e : FsError) : Prop := q.inspect recursive h = .error e ∧ e.isNotFound = false

inductive Reaches : H → List String → H → Prop
  | here (h : H) : Reaches h [] h
  | child {h c d : H} {names : List String} (listed : c ∈ q.listing recursive h)
      (below : Reaches c names d) : Reaches h (q.name c :: names) d

def FailsAt (h : H) (names : List String) (d : H) (e : FsError) : Prop :=
  names ≠ [] ∧ q.Reaches recursive h names d ∧ q.Fails recursive d e

/-- There are at most `depth` levels, and the names in each listing stand in the relation. -/
def Orderly (before : String → String → Prop) : Nat → H → Prop
  | 0, _ => False
  | depth + 1, h =>
    (q.listing recursive h).Pairwise (fun c d => before (q.name c) (q.name d)) ∧
      ∀ c ∈ q.listing recursive h, Orderly before depth c

instance decidableOrderly (before : String → String → Prop) [DecidableRel before] :
    ∀ depth h, Decidable (q.Orderly recursive before depth h)
  | 0, _ => isFalse not_false
  | depth + 1, _ =>
    have := decidableOrderly before depth
    inferInstanceAs (Decidable (_ ∧ _))

end

theorem Orderly.mono {q : Queries H Unit} {recursive : Bool} {before before' : String → String → Prop}
    {depth : Nat} {h : H} (orderly : q.Orderly recursive before depth h)
    (imp : ∀ a b, before a b → before' a b) : q.Orderly recursive before' depth h := by
  induction depth generalizing h with
  | zero => exact orderly.elim
  | succ depth ih =>
    refine ⟨orderly.1.imp ?_, fun c listed => ih (orderly.2 c listed)⟩
    exact fun {_ _} => imp _ _

end Queries

namespace Capture

variable {q : Queries H Unit} {recursive : Bool} {depth : Nat} {h : H} {previous : Option Snapshot}

def namesake (previous : Option Snapshot) (name : String) : Option Snapshot :=
  ((previous.map contents).getD []).lookup name

theorem bind_at?_namesake (previous : Option Snapshot) (name : String) (names : List String) :
    previous.bind (at? (name :: names)) = (namesake previous name).bind (at? names) := by
  rw [bind_at?_cons, before_eq]
  rfl

theorem namesake_consistent (hp : ∀ p ∈ previous, p.Consistent) {name : String} {s : Snapshot}
    (found : namesake previous name = some s) : s.present = true ∧ s.Consistent := by
  cases previous with
  | none => cases found
  | some p => exact (hp p rfl).of_mem (Keyed.mem_of_lookup found)

section

variable (q recursive depth h previous)

theorem visit_eq : visit q recursive (depth + 1) h previous () =
    match q.inspect recursive h with
    | .error e => (Visit.failed e ()).settled (q.id h)
    | .ok .absent => .found (.missing (q.id h)) ()
    | .ok (.file t n) => .found (.file (q.id h) t n) ()
    | .ok (.folder t hs) =>
      let g := gather q (visit q recursive depth) ((previous.map contents).getD []) hs ⟨[], [], ()⟩
      ⟨.ok (.folder (q.id h) t g.children), g.failures, ()⟩ := by
  rw [visit, look, Queries.inspect]
  obtain ⟨_ | _ | _, ⟨⟩⟩ := q.isPresent h ()
  · rfl
  · rfl
  dsimp only
  obtain ⟨_ | t, ⟨⟩⟩ := q.modified h ()
  · rfl
  dsimp only
  obtain ⟨_ | _ | _, ⟨⟩⟩ := q.isFolder h ()
  · rfl
  · dsimp only
    obtain ⟨_ | n, ⟨⟩⟩ := q.size h () <;> rfl
  cases recursive with
  | false => rfl
  | true =>
    dsimp only
    obtain ⟨_ | hs, ⟨⟩⟩ := q.children h () <;> rfl

end

theorem visit_of_fails {e : FsError} (fails : q.Fails recursive h e) (depth : Nat)
    (previous : Option Snapshot) :
    visit q recursive (depth + 1) h previous () = .failed e () := by
  rw [visit_eq, fails.1]
  simp [Visit.settled, Visit.failed, fails.2]

def gathered (q : Queries H Unit) (recursive : Bool) (depth : Nat) (h : H)
    (previous : Option Snapshot) : Gathered Unit :=
  gather q (visit q recursive depth) ((previous.map contents).getD []) (q.listing recursive h)
    ⟨[], [], ()⟩

theorem visit_of_readable (readable : ∀ e, ¬ q.Fails recursive h e) (depth : Nat)
    (previous : Option Snapshot) :
    visit q recursive (depth + 1) h previous () =
      ⟨.ok (.node (q.factsOf recursive h) (gathered q recursive depth h previous).children),
        (gathered q recursive depth h previous).failures, ()⟩ := by
  rw [visit_eq, gathered, Queries.factsOf, Queries.listing]
  cases hi : q.inspect recursive h with
  | error e =>
    cases gone : e.isNotFound with
    | true =>
      simp only [Visit.settled, Visit.failed, gone, if_true]
      rfl
    | false => exact absurd ⟨hi, gone⟩ (readable e)
  | ok found => cases found <;> rfl

theorem listing_of_fails {e : FsError} (fails : q.Fails recursive h e) :
    q.listing recursive h = [] := by
  rw [Queries.listing, fails.1]

theorem readable_of_listed {c : H} (listed : c ∈ q.listing recursive h) (e : FsError) :
    ¬ q.Fails recursive h e := by
  intro fails
  rw [listing_of_fails fails] at listed
  cases listed

theorem result_eq_error_iff {e : FsError} :
    (visit q recursive (depth + 1) h previous ()).result = .error e ↔ q.Fails recursive h e := by
  by_cases readable : ∀ e, ¬ q.Fails recursive h e
  · rw [visit_of_readable readable]
    exact iff_of_false nofun (readable e)
  · obtain ⟨e', fails⟩ := not_forall_not.1 readable
    rw [visit_of_fails fails]
    constructor
    · intro same
      cases same
      exact fails
    · intro same
      cases fails.1.symm.trans same.1
      rfl

theorem readable_of_ok {snapshot : Snapshot}
    (ok : (visit q recursive (depth + 1) h previous ()).result = .ok snapshot) (e : FsError) :
    ¬ q.Fails recursive h e := by
  intro fails
  rw [visit_of_fails fails] at ok
  cases ok

theorem snapshot_of_ok {snapshot : Snapshot}
    (ok : (visit q recursive (depth + 1) h previous ()).result = .ok snapshot) :
    snapshot = .node (q.factsOf recursive h) (gathered q recursive depth h previous).children := by
  rw [visit_of_readable (readable_of_ok ok)] at ok
  cases ok
  rfl

section

variable {c : H} (listed : c ∈ q.listing recursive h)
  (distinct : (q.listing recursive h).Pairwise fun c d => q.name c ≠ q.name d)
include listed distinct

theorem eq_of_same_name {d : H} (hd : d ∈ q.listing recursive h) (same : q.name d = q.name c) :
    d = c := by
  have names : ((q.listing recursive h).map q.name).Nodup := List.pairwise_map.2 distinct
  exact List.inj_on_of_nodup_map names hd listed same

theorem lookup_gathered : (gathered q recursive depth h previous).children.lookup (q.name c) =
    shown (namesake previous (q.name c))
      (visit q recursive depth c (namesake previous (q.name c)) ()).result := by
  have still : ∀ h prior, (visit q recursive depth h prior ()).after = () := fun _ _ => rfl
  have found := lookup_gather_of_mem still ((previous.map contents).getD []) listed
    (fun d hd => eq_of_same_name listed distinct hd) ⟨[], [], ()⟩ rfl
  rwa [List.lookup_nil, Option.or_none] at found

end

theorem lookup_gathered_of_forall_ne {name : String}
    (other : ∀ c ∈ q.listing recursive h, q.name c ≠ name) :
    (gathered q recursive depth h previous).children.lookup name = none :=
  lookup_gather_of_forall_ne other ⟨[], [], ()⟩

theorem exists_listed {names : List String} {d : H} (reaches : q.Reaches recursive h names d)
    (below : names ≠ []) : ∃ c, c ∈ q.listing recursive h := by
  cases reaches with
  | here => exact absurd rfl below
  | child listed => exact ⟨_, listed⟩

theorem exists_depth {before : String → String → Prop}
    (orderly : q.Orderly recursive before depth h) : ∃ d, depth = d + 1 := by
  cases depth with
  | zero => exact orderly.elim
  | succ d => exact ⟨d, rfl⟩

theorem present_of_listed {c : H} (listed : c ∈ q.listing recursive h) :
    (q.factsOf recursive h).present = true := by
  rw [Queries.listing] at listed
  rw [Queries.factsOf]
  cases hi : q.inspect recursive h with
  | error e =>
    rw [hi] at listed
    cases listed
  | ok found =>
    rw [hi] at listed
    cases found with
    | absent => cases listed
    | file t n => cases listed
    | folder t hs => rfl

theorem shown_of_readable (readable : ∀ e, ¬ q.Fails recursive h e) (depth : Nat)
    (prior previous : Option Snapshot) :
    shown prior (visit q recursive (depth + 1) h previous ()).result =
      if (q.factsOf recursive h).present = true then
        some (.node (q.factsOf recursive h) (gathered q recursive depth h previous).children)
      else none := by
  rw [visit_of_readable readable]
  rfl

theorem reaches_nil_iff {d : H} : q.Reaches recursive h [] d ↔ d = h := by
  constructor
  · intro reaches
    cases reaches
    rfl
  · intro same
    exact same ▸ .here d

theorem reaches_cons_iff {name : String} {names : List String} {d : H} :
    q.Reaches recursive h (name :: names) d ↔
      ∃ c ∈ q.listing recursive h, q.name c = name ∧ q.Reaches recursive c names d := by
  constructor
  · intro reaches
    cases reaches with
    | child listed below => exact ⟨_, listed, rfl, below⟩
  · intro reaches
    obtain ⟨c, listed, rfl, below⟩ := reaches
    exact .child listed below

theorem reaches_child_iff {c d : H} {names : List String} (listed : c ∈ q.listing recursive h)
    (distinct : (q.listing recursive h).Pairwise fun c d => q.name c ≠ q.name d) :
    q.Reaches recursive h (q.name c :: names) d ↔ q.Reaches recursive c names d := by
  rw [reaches_cons_iff]
  constructor
  · intro reaches
    obtain ⟨b, hb, same, below⟩ := reaches
    exact eq_of_same_name listed distinct hb same ▸ below
  · intro below
    exact ⟨c, listed, rfl, below⟩

theorem failsAt_child {c d : H} {names : List String} {e : FsError}
    (listed : c ∈ q.listing recursive h) (fails : q.FailsAt recursive c names d e) :
    q.FailsAt recursive h (q.name c :: names) d e :=
  ⟨List.cons_ne_nil _ _, .child listed fails.2.1, fails.2.2⟩

end Capture

end PathWatch
