import PathWatch.Proofs.Capture.Gather

/-! A capture in which every question is answered takes up each child that is there at
its turn, under its name, even if the answers change meanwhile. -/
namespace PathWatch

variable {H σ : Type}

def Queries.Lists (q : Queries H σ) (h : H) (s : σ) (time : Time) (hs : List H) (t : σ) : Prop :=
  ∃ s₁ s₂ s₃, q.isPresent h s = (.ok true, s₁) ∧ q.modified h s₁ = (.ok time, s₂) ∧
    q.isFolder h s₂ = (.ok true, s₃) ∧ q.children h s₃ = (.ok hs, t)

namespace Capture

section

variable (q : Queries H σ)

def turns (depth : Nat) : List H → σ → List (H × σ)
  | [], _ => []
  | h :: hs, s => (h, s) :: turns depth hs (visit q true depth h none s).after

/-- No question fails that a capture asks, down to the given depth. -/
inductive Answered : Nat → H → σ → Prop
  | absent {depth : Nat} {h : H} {s s' : σ} (gone : q.isPresent h s = (.ok false, s')) :
      Answered (depth + 1) h s
  | file {depth : Nat} {h : H} {s s₁ s₂ s₃ s₄ : σ} {time : Time} {size : Nat}
      (present : q.isPresent h s = (.ok true, s₁)) (modified : q.modified h s₁ = (.ok time, s₂))
      (plain : q.isFolder h s₂ = (.ok false, s₃)) (sized : q.size h s₃ = (.ok size, s₄)) :
      Answered (depth + 1) h s
  | folder {depth : Nat} {h : H} {s t : σ} {time : Time} {hs : List H}
      (lists : q.Lists h s time hs t) (below : ∀ c ∈ turns q depth hs t, Answered depth c.1 c.2) :
      Answered (depth + 1) h s

def isThere : Except FsError Bool → Bool
  | .ok present => present
  | .error _ => false

def seen (depth : Nat) (hs : List H) (s : σ) : List H :=
  ((turns q depth hs s).filter fun c => isThere (q.isPresent c.1 c.2).1).map Prod.fst

def found (depth : Nat) (hs : List H) (s : σ) : List (H × Snapshot) :=
  (turns q depth hs s).filterMap fun c =>
    (shown none (visit q true depth c.1 none c.2).result).map fun snapshot => (c.1, snapshot)

def Shows (depth : Nat) (h : H) (s : σ) : Prop :=
  ∃ snapshot, (visit q true depth h none s).result = .ok snapshot ∧
    (visit q true depth h none s).failures = [] ∧ snapshot.id = q.id h ∧
    snapshot.present = isThere (q.isPresent h s).1

end

variable {q : Queries H σ} {depth : Nat} {h : H} {hs : List H} {s t : σ} {time : Time}

theorem visit_of_lists (depth : Nat) (previous : Option Snapshot)
    (lists : q.Lists h s time hs t) :
    visit q true (depth + 1) h previous s =
      let g := gather q (visit q true depth) ((previous.map Snapshot.contents).getD []) hs
        ⟨[], [], t⟩
      ⟨.ok (.folder (q.id h) time g.children), g.failures, g.after⟩ := by
  obtain ⟨s₁, s₂, s₃, present, modified, folder, children⟩ := lists
  rw [visit, look, present]
  dsimp only
  rw [modified]
  dsimp only
  rw [folder]
  dsimp only
  rw [if_pos rfl, children]
  rfl

theorem add_children (g : Gathered σ) (name : String) (id : FileId) (v : Visit σ) :
    (g.add name id none v).children =
      ((shown none v.result).map fun snapshot => (name, snapshot)).toList.foldl
        (fun m p => Keyed.insert p.1 p.2 m) g.children := by
  obtain ⟨e | snapshot, failures, t⟩ := v
  · rfl
  · cases hp : snapshot.present <;> simp [Gathered.add, shown, hp]

theorem gather_children (depth : Nat) (hs : List H) (g : Gathered σ) :
    (gather q (visit q true depth) [] hs g).children =
      ((found q depth hs g.after).map fun c => (q.name c.1, c.2)).foldl
        (fun m p => Keyed.insert p.1 p.2 m) g.children := by
  induction hs generalizing g with
  | nil => rfl
  | cons h hs ih =>
    rw [gather, ih, add_after, List.lookup_nil, add_children, found, found, turns,
      List.filterMap_cons]
    cases shown none (visit q true depth h none g.after).result <;> rfl

theorem gather_failures_of_shows {g : Gathered σ}
    (shows : ∀ c ∈ turns q depth hs g.after, Shows q depth c.1 c.2) :
    (gather q (visit q true depth) [] hs g).failures = g.failures := by
  induction hs generalizing g with
  | nil => rfl
  | cons h hs ih =>
    obtain ⟨snapshot, result, failures, _⟩ := shows _ List.mem_cons_self
    have own : failuresAt (q.id h) (visit q true depth h none g.after) = [] := by
      rw [failuresAt, result, failures]
    rw [gather, ih, List.lookup_nil, add_failures, own, List.append_nil]
    intro c hc
    rw [add_after] at hc
    exact shows c (List.mem_cons_of_mem _ hc)

theorem shown_of_shows (shows : Shows q depth h s) :
    ∃ snapshot : Snapshot, snapshot.id = q.id h ∧ shown none (visit q true depth h none s).result =
      if isThere (q.isPresent h s).1 then some snapshot else none := by
  obtain ⟨snapshot, result, _, id, present⟩ := shows
  exact ⟨snapshot, id, by rw [result, shown, present]⟩

theorem found_of_shows (shows : ∀ c ∈ turns q depth hs s, Shows q depth c.1 c.2) :
    (found q depth hs s).map Prod.fst = seen q depth hs s ∧
      ∀ c ∈ found q depth hs s, c.2.id = q.id c.1 := by
  induction hs generalizing s with
  | nil => exact ⟨rfl, nofun⟩
  | cons h hs ih =>
    obtain ⟨snapshot, id, first⟩ := shown_of_shows (shows _ List.mem_cons_self)
    obtain ⟨rest, ids⟩ := ih fun c hc => shows c (List.mem_cons_of_mem _ hc)
    rw [found, seen, turns, List.filterMap_cons, List.filter_cons, first]
    cases isThere (q.isPresent h s).1 with
    | false => exact ⟨rest, ids⟩
    | true =>
      refine ⟨congrArg (h :: ·) rest, fun c hc => ?_⟩
      rcases List.mem_cons.1 hc with rfl | hc
      · exact id
      · exact ids c hc

theorem seen_sublist (depth : Nat) (hs : List H) (s : σ) : (seen q depth hs s).Sublist hs := by
  induction hs generalizing s with
  | nil => exact List.Sublist.refl []
  | cons h hs ih =>
    rw [seen, turns, List.filter_cons]
    split
    · exact (ih _).cons_cons h
    · exact (ih _).cons h

theorem Answered.shows (answered : Answered q depth h s) : Shows q depth h s := by
  induction answered with
  | @absent depth h s s' gone =>
    have visited : visit q true (depth + 1) h none s = .found (.missing (q.id h)) s' := by
      rw [visit, look, gone]
      rfl
    exact ⟨_, congrArg Visit.result visited, congrArg Visit.failures visited, rfl,
      by rw [gone]; rfl⟩
  | @file depth h s s₁ s₂ s₃ s₄ time size present modified plain sized =>
    have visited : visit q true (depth + 1) h none s = .found (.file (q.id h) time size) s₄ := by
      rw [visit, look, present]
      dsimp only
      rw [modified]
      dsimp only
      rw [plain]
      dsimp only
      rw [sized]
      rfl
    exact ⟨_, congrArg Visit.result visited, congrArg Visit.failures visited, rfl,
      by rw [present]; rfl⟩
  | @folder depth h s t time hs lists below ih =>
    have visited := visit_of_lists depth none lists
    have failures := gather_failures_of_shows (g := ⟨[], [], t⟩) ih
    obtain ⟨s₁, _, _, present, _⟩ := lists
    exact ⟨_, congrArg Visit.result visited, (congrArg Visit.failures visited).trans failures, rfl,
      by rw [present]; rfl⟩

/-- A capture of a folder takes up the children that are there under their names; of two with
one name the later one stays. -/
theorem strict_of_answered (lists : q.Lists h s time hs t)
    (below : ∀ c ∈ turns q depth hs t, Answered q depth c.1 c.2) :
    strict (visit q true (depth + 1) h none s) = .ok (.folder (q.id h) time
      (Keyed.ofList ((found q depth hs t).map fun c => (q.name c.1, c.2)))) := by
  have failures := gather_failures_of_shows (g := ⟨[], [], t⟩) fun c hc => (below c hc).shows
  have children := gather_children (q := q) depth hs ⟨[], [], t⟩
  rw [visit_of_lists depth none lists, strict]
  simp only [Option.map_none, Option.getD_none, failures, children, List.getLast?_nil]
  rfl

end Capture

end PathWatch
