import PathWatch.Proofs.Capture.Answered
import PathWatch.Proofs.Capture.Inspect

/-! A capture while paths come and go. Whatever is answered, and however the answers change
meanwhile, a snapshot that comes out is consistent. A path that vanishes under the questions
counts as missing, and below another one it leaves neither a child nor a failure behind. -/
namespace PathWatch

open Snapshot

variable {H σ : Type}

namespace Queries

/-- Whatever the listings are, they lead down at most `depth` levels. -/
def Shallow (q : Queries H σ) : Nat → H → Prop
  | 0, _ => False
  | depth + 1, h => ∀ s hs t, q.children h s = (.ok hs, t) → ∀ c ∈ hs, q.Shallow depth c

/-- One of the questions to a path, which leads to the state `t`, finds that the path is gone. -/
inductive Vanishes (q : Queries H σ) (recursive : Bool) (h : H) (s t : σ) : Prop
  | absent (lost : q.isPresent h s = (.ok false, t))
  | isPresent {e : FsError} (gone : e.isNotFound = true) (lost : q.isPresent h s = (.error e, t))
  | modified {e : FsError} {s₁ : σ} (gone : e.isNotFound = true)
      (present : q.isPresent h s = (.ok true, s₁)) (lost : q.modified h s₁ = (.error e, t))
  | isFolder {e : FsError} {s₁ s₂ : σ} {time : Time} (gone : e.isNotFound = true)
      (present : q.isPresent h s = (.ok true, s₁)) (modified : q.modified h s₁ = (.ok time, s₂))
      (lost : q.isFolder h s₂ = (.error e, t))
  | size {e : FsError} {s₁ s₂ s₃ : σ} {time : Time} (gone : e.isNotFound = true)
      (present : q.isPresent h s = (.ok true, s₁)) (modified : q.modified h s₁ = (.ok time, s₂))
      (plain : q.isFolder h s₂ = (.ok false, s₃)) (lost : q.size h s₃ = (.error e, t))
  | children {e : FsError} {s₁ s₂ s₃ : σ} {time : Time} (gone : e.isNotFound = true)
      (deep : recursive = true) (present : q.isPresent h s = (.ok true, s₁))
      (modified : q.modified h s₁ = (.ok time, s₂)) (folder : q.isFolder h s₂ = (.ok true, s₃))
      (lost : q.children h s₃ = (.error e, t))

end Queries

namespace Capture

section

variable (q : Queries H σ)

def collect (depth : Nat) (previous : Option Snapshot) (hs : List H) (s : σ) : Gathered σ :=
  gather q (visit q true depth) ((previous.map contents).getD []) hs ⟨[], [], s⟩

/-- The visits that a recursive visit consists of, each with the levels left to it, its handle,
what is known of that before and the state in which its turn comes. -/
inductive Meets (depth : Nat) (h : H) (previous : Option Snapshot) (s : σ) :
    Nat → H → Option Snapshot → σ → Prop
  | first : Meets depth h previous s depth h previous s
  | child {d : Nat} {p c : H} {prior : Option Snapshot} {u t : σ} {time : Time}
      {front rest : List H}
      (met : Meets depth h previous s (d + 1) p prior u)
      (lists : q.Lists p u time (front ++ c :: rest) t) :
      Meets depth h previous s d c (namesake prior (q.name c)) (collect q d prior front t).after

end

variable {q : Queries H σ} {recursive : Bool} {depth : Nat} {h : H} {previous : Option Snapshot}
  {s t : σ}

theorem settled_of_isNotFound {e : FsError} (gone : e.isNotFound = true) (id : FileId) (t : σ) :
    (Visit.failed e t).settled id = .found (.missing id) t := by
  simp only [Visit.settled, Visit.failed, gone, if_true]
  rfl

theorem visit_of_vanishes (vanishes : q.Vanishes recursive h s t) (depth : Nat)
    (previous : Option Snapshot) :
    visit q recursive (depth + 1) h previous s = .found (.missing (q.id h)) t := by
  rw [visit, look]
  cases vanishes with
  | absent lost =>
    rw [lost]
    rfl
  | isPresent gone lost =>
    rw [lost]
    exact settled_of_isNotFound gone _ t
  | modified gone present lost =>
    rw [present]
    dsimp only
    rw [lost]
    exact settled_of_isNotFound gone _ t
  | isFolder gone present modified lost =>
    rw [present]
    dsimp only
    rw [modified]
    dsimp only
    rw [lost]
    exact settled_of_isNotFound gone _ t
  | size gone present modified plain lost =>
    rw [present]
    dsimp only
    rw [modified]
    dsimp only
    rw [plain]
    dsimp only
    rw [lost]
    exact settled_of_isNotFound gone _ t
  | children gone deep present modified folder lost =>
    rw [present]
    dsimp only
    rw [modified]
    dsimp only
    rw [folder]
    dsimp only
    rw [if_pos deep, lost]
    exact settled_of_isNotFound gone _ t

theorem add_missing (g : Gathered σ) (name : String) (id other : FileId) (prior : Option Snapshot)
    (t : σ) : g.add name id prior (.found (.missing other) t) = { g with after := t } := by
  simp [Gathered.add, Visit.found, missing, present, facts]

theorem gather_append {visit : H → Option Snapshot → σ → Visit σ} {known : List (String × Snapshot)}
    (front rest : List H) (g : Gathered σ) : gather q visit known (front ++ rest) g =
      gather q visit known rest (gather q visit known front g) := by
  induction front generalizing g with
  | nil => rfl
  | cons h front ih => exact ih _

theorem collect_of_vanishes {c : H} {front : List H}
    (vanishes : q.Vanishes true c (collect q (depth + 1) previous front s).after t)
    (rest : List H) : collect q (depth + 1) previous (front ++ c :: rest) s =
      gather q (visit q true (depth + 1)) ((previous.map contents).getD []) rest
        { collect q (depth + 1) previous front s with after := t } := by
  have visited := visit_of_vanishes vanishes depth (namesake previous (q.name c))
  rw [collect, gather_append, gather]
  exact congrArg _ ((congrArg _ visited).trans (add_missing _ _ _ _ _ t))

theorem Meets.shallow (shallow : q.Shallow depth h) {d : Nat} {c : H} {prior : Option Snapshot}
    {u : σ} (met : Meets q depth h previous s d c prior u) : q.Shallow d c := by
  induction met with
  | first => exact shallow
  | child _ lists ih =>
    obtain ⟨_, _, s₃, _, _, _, children⟩ := lists
    exact ih s₃ _ _ children _ (by simp)

theorem gather_congr {visit visit' : H → Option Snapshot → σ → Visit σ}
    {known : List (String × Snapshot)} {hs : List H}
    (same : ∀ c ∈ hs, ∀ prior u, visit c prior u = visit' c prior u) (g : Gathered σ) :
    gather q visit known hs g = gather q visit' known hs g := by
  induction hs generalizing g with
  | nil => rfl
  | cons c hs ih =>
    rw [gather, gather, same c List.mem_cons_self]
    exact ih (fun d hd => same d (List.mem_cons_of_mem c hd)) _

theorem look_congr {visit visit' : H → Option Snapshot → σ → Visit σ}
    (same : ∀ u hs t, q.children h u = (.ok hs, t) →
      ∀ c ∈ hs, ∀ prior u, visit c prior u = visit' c prior u) :
    look q recursive visit h previous s = look q recursive visit' h previous s := by
  rw [look, look]
  obtain ⟨_ | _ | _, s₁⟩ := q.isPresent h s
  · rfl
  · rfl
  dsimp only
  obtain ⟨_ | time, s₂⟩ := q.modified h s₁
  · rfl
  dsimp only
  obtain ⟨_ | _ | _, s₃⟩ := q.isFolder h s₂
  · rfl
  · rfl
  dsimp only
  cases recursive with
  | false => rfl
  | true =>
    rw [if_pos rfl, if_pos rfl]
    cases listing : q.children h s₃ with
    | mk answer s₄ =>
      cases answer with
      | error e => rfl
      | ok hs =>
        dsimp only
        rw [gather_congr (same s₃ hs s₄ listing)]

theorem visit_of_shallow (shallow : q.Shallow depth h) (more : Nat) (previous : Option Snapshot)
    (s : σ) :
    visit q recursive (depth + more) h previous s = visit q recursive depth h previous s := by
  induction depth generalizing h previous s with
  | zero => exact shallow.elim
  | succ depth ih =>
    rw [Nat.succ_add, visit, visit]
    refine congrArg (Visit.settled (q.id h)) (look_congr ?_)
    intro u hs t listing c hc prior u'
    exact ih (shallow u hs t listing c hc) prior u'

theorem shape_of_ok {snapshot : Snapshot}
    (ok : (visit q recursive depth h previous s).result = .ok snapshot) :
    snapshot.id = q.id h ∧ (recursive = false → snapshot.children = []) := by
  cases depth with
  | zero => cases ok
  | succ depth =>
    rcases visit_ok ok with rfl | ⟨t, n, rfl⟩ | ⟨t, rfl⟩ | ⟨t, hs, s', deep, rfl⟩
    · exact ⟨rfl, fun _ => rfl⟩
    · exact ⟨rfl, fun _ => rfl⟩
    · exact ⟨rfl, fun _ => rfl⟩
    · refine ⟨rfl, fun flat => ?_⟩
      rw [deep] at flat
      cases flat

theorem result_of_strict {v : Visit σ} {snapshot : Snapshot} (ok : strict v = .ok snapshot) :
    v.result = .ok snapshot := by
  rw [strict] at ok
  split at ok
  · generalize v.result = result at ok
    cases result <;> cases ok
  · exact ok

/-- A capture gives consistent snapshots only, under the path's own identity, and without children
unless it is recursive. If the path vanishes it is missing. If a path that is met below it vanishes,
its folder is put together from the visits before it and after it. -/
theorem consistent_while_paths_vanish (shallow : q.Shallow depth h)
    (hp : ∀ p ∈ previous, p.Consistent) (s : σ) :
    let v := visit q recursive depth h previous s
    (∀ snapshot, v.result = .ok snapshot ∨ strict v = .ok snapshot →
      snapshot.id = q.id h ∧ snapshot.Consistent ∧ (recursive = false → snapshot.children = [])) ∧
    (∀ t, q.Vanishes recursive h s t → v = .found (.missing (q.id h)) t) ∧
    (∀ d p prior u, recursive = true → Meets q depth h previous s (d + 1) p prior u →
      ∀ time front c rest t t', q.Lists p u time (front ++ c :: rest) t →
        let before := collect q d prior front t
        q.Vanishes true c before.after t' →
        let all := gather q (visit q true d) ((prior.map contents).getD []) rest
          { before with after := t' }
        visit q true (d + 1) p prior u =
          ⟨.ok (.folder (q.id p) time all.children), all.failures, all.after⟩) ∧
    ∀ more, visit q recursive (depth + more) h previous s = v := by
  intro v
  refine ⟨?_, ?_, ?_, fun more => visit_of_shallow shallow more previous s⟩
  · intro snapshot captured
    have ok : v.result = .ok snapshot := captured.elim (fun ok => ok) result_of_strict
    obtain ⟨id, flat⟩ := shape_of_ok ok
    exact ⟨id, visit_consistent hp ok, flat⟩
  · intro t vanishes
    cases depth with
    | zero => exact shallow.elim
    | succ depth => exact visit_of_vanishes vanishes depth previous
  · intro d p prior u _ met time front c rest t t' lists before vanishes all
    have below : q.Shallow d c := (met.child lists).shallow shallow
    cases d with
    | zero => exact below.elim
    | succ d =>
      have gathered : collect q (d + 1) prior (front ++ c :: rest) t = all :=
        collect_of_vanishes vanishes rest
      rw [visit_of_lists (d + 1) prior lists, ← gathered]
      rfl

inductive Spot
  | yard
  | cat
  | ghost
deriving DecidableEq

def Spot.answers : Queries Spot Nat where
  id
    | .yard => ⟨"yard"⟩
    | _ => ⟨"yard/x"⟩
  name
    | .yard => "yard"
    | _ => "x"
  isPresent _ n := (.ok true, n + 1)
  modified _ n := (.ok ⟨n⟩, n + 1)
  isFolder spot n := (.ok (spot = .yard), n + 1)
  size spot n := (if spot = .ghost then .error (.notFound "yard/x") else .ok n, n + 1)
  children spot n := (.ok (if spot = .yard then [.cat, .ghost] else []), n + 1)

theorem Spot.shallow : answers.Shallow 2 .yard := by
  intro s hs t listing c hc s' hs' t' listing' d hd
  cases listing
  cases listing'
  rcases List.mem_cons.1 hc with rfl | hc
  · cases hd
  · rw [List.mem_singleton.1 hc] at hd
    cases hd

theorem cat_stays_when_ghost_vanishes :
    let v := visit Spot.answers true 2 .yard
      (some (.folder ⟨"yard"⟩ ⟨0⟩ [("x", .file ⟨"old"⟩ ⟨0⟩ 0)])) 0
    v = ⟨.ok (.folder ⟨"yard"⟩ ⟨1⟩ [("x", .file ⟨"yard/x"⟩ ⟨5⟩ 7)]), [], 12⟩ ∧
      (Snapshot.folder ⟨"yard"⟩ ⟨1⟩ [("x", .file ⟨"yard/x"⟩ ⟨5⟩ 7)]).Consistent := by
  intro v
  have known : ∀ p ∈ some (Snapshot.folder ⟨"yard"⟩ ⟨0⟩ [("x", .file ⟨"old"⟩ ⟨0⟩ 0)]),
      p.Consistent := by
    intro p hp
    cases hp
    refine consistent_folder (List.pairwise_singleton _ _) ?_
    intro c hc
    rw [List.mem_singleton.1 hc]
    exact ⟨rfl, consistent_file _ _ _⟩
  obtain ⟨consistent, _, vanished, _⟩ := consistent_while_paths_vanish Spot.shallow known 0
  have lists : Spot.answers.Lists .yard 0 ⟨1⟩ ([.cat] ++ .ghost :: []) 4 :=
    ⟨1, 2, 3, rfl, rfl, rfl, rfl⟩
  have gone : Spot.answers.Vanishes true .ghost 8 12 :=
    .size (e := .notFound "yard/x") rfl rfl rfl rfl rfl
  have visited := vanished 1 .yard _ 0 rfl .first ⟨1⟩ [.cat] .ghost [] 4 12 lists gone
  exact ⟨visited, (consistent _ (.inl (congrArg Visit.result visited))).2.1⟩

end Capture

end PathWatch
