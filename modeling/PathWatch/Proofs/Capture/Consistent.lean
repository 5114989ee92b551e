import PathWatch.Proofs.Capture.Gather
import PathWatch.Proofs.Snapshot.Consistent

/-! Whatever the answers to a capture are, and however they change while it is made,
the snapshot that it gives is consistent. -/
namespace PathWatch.Capture

open Snapshot

variable {H σ : Type} {q : Queries H σ}

theorem look_ok {recursive : Bool} {visit : H → Option Snapshot → σ → Visit σ} {h : H}
    {previous : Option Snapshot} {s : σ} {snapshot : Snapshot}
    (ok : (look q recursive visit h previous s).result = .ok snapshot) :
    snapshot = .missing (q.id h) ∨ (∃ t n, snapshot = .file (q.id h) t n) ∨
      (∃ t, snapshot = .folder (q.id h) t []) ∨
      ∃ t hs s', recursive = true ∧ snapshot = .folder (q.id h) t (gather q visit
        ((previous.map contents).getD []) hs ⟨[], [], s'⟩).children := by
  rw [look] at ok
  generalize q.isPresent h s = answer at ok
  obtain ⟨_ | _ | _, s₁⟩ := answer
  · cases ok
  · cases ok
    exact .inl rfl
  dsimp only at ok
  generalize q.modified h s₁ = answer at ok
  obtain ⟨_ | t, s₂⟩ := answer
  · cases ok
  dsimp only at ok
  generalize q.isFolder h s₂ = answer at ok
  obtain ⟨_ | _ | _, s₃⟩ := answer
  · cases ok
  · dsimp only at ok
    generalize q.size h s₃ = answer at ok
    obtain ⟨_ | n, s₄⟩ := answer
    · cases ok
    · cases ok
      exact .inr (.inl ⟨t, n, rfl⟩)
  dsimp only at ok
  split at ok
  · next rec =>
    generalize q.children h s₃ = answer at ok
    obtain ⟨_ | hs, s₄⟩ := answer
    · cases ok
    · cases ok
      exact .inr (.inr (.inr ⟨t, hs, s₄, rec, rfl⟩))
  · cases ok
    exact .inr (.inr (.inl ⟨t, rfl⟩))

theorem visit_ok {recursive : Bool} {depth : Nat} {h : H} {previous : Option Snapshot} {s : σ}
    {snapshot : Snapshot}
    (ok : (visit q recursive (depth + 1) h previous s).result = .ok snapshot) :
    snapshot = .missing (q.id h) ∨ (∃ t n, snapshot = .file (q.id h) t n) ∨
      (∃ t, snapshot = .folder (q.id h) t []) ∨
      ∃ t hs s', recursive = true ∧ snapshot = .folder (q.id h) t (gather q
        (visit q recursive depth) ((previous.map contents).getD []) hs ⟨[], [], s'⟩).children := by
  rw [visit, Visit.settled] at ok
  split at ok
  · exact look_ok ok
  · next failed =>
    split at ok
    · cases ok
      exact .inl rfl
    · rw [failed] at ok
      cases ok

structure Gathered.Consistent (g : Gathered σ) : Prop where
  ordered : Keyed.Ordered g.children
  children : ∀ c ∈ g.children, c.2.present = true ∧ c.2.Consistent

theorem Gathered.Consistent.insert {g : Gathered σ} (hg : g.Consistent) (name : String)
    {s : Snapshot} (hp : s.present = true) (hs : s.Consistent) {failures : List Failure} {t : σ} :
    Gathered.Consistent ⟨Keyed.insert name s g.children, failures, t⟩ where
  ordered := Keyed.ordered_insert name s hg.ordered
  children c hc := by
    rcases Keyed.mem_insert hc with rfl | hc
    · exact ⟨hp, hs⟩
    · exact hg.children c hc

theorem Gathered.Consistent.add {g : Gathered σ} (hg : g.Consistent) (name : String) (id : FileId)
    {prior : Option Snapshot} (known : ∀ s ∈ prior, s.present = true ∧ s.Consistent) {v : Visit σ}
    (seen : ∀ s, v.result = .ok s → s.Consistent) : (g.add name id prior v).Consistent := by
  unfold Gathered.add
  split
  · next s ok =>
    by_cases hp : s.present = true
    · rw [if_pos hp]
      exact hg.insert name hp (seen s ok)
    · rw [if_neg hp]
      exact ⟨hg.ordered, hg.children⟩
  · cases prior with
    | none => exact ⟨hg.ordered, hg.children⟩
    | some s => exact hg.insert name (known s rfl).1 (known s rfl).2

theorem gather_consistent {visit : H → Option Snapshot → σ → Visit σ}
    {known : List (String × Snapshot)} (hk : ∀ c ∈ known, c.2.present = true ∧ c.2.Consistent)
    (hv : ∀ h prior t s, (∀ p ∈ prior, Snapshot.Consistent p) → (visit h prior t).result = .ok s →
      s.Consistent) (hs : List H) {g : Gathered σ} (hg : g.Consistent) :
    (gather q visit known hs g).Consistent := by
  induction hs generalizing g with
  | nil => exact hg
  | cons h hs ih =>
    have prior : ∀ s ∈ known.lookup (q.name h), s.present = true ∧ s.Consistent := by
      intro s found
      exact hk _ (Keyed.mem_of_lookup found)
    exact ih (hg.add _ _ prior fun s => hv h _ _ s fun p hp => (prior p hp).2)

theorem visit_consistent {recursive : Bool} {depth : Nat} {h : H} {previous : Option Snapshot}
    (hp : ∀ p ∈ previous, p.Consistent) {s : σ} {snapshot : Snapshot}
    (ok : (visit q recursive depth h previous s).result = .ok snapshot) : snapshot.Consistent := by
  induction depth generalizing h previous s snapshot with
  | zero => cases ok
  | succ depth ih =>
    have known : ∀ c ∈ (previous.map contents).getD [], c.2.present = true ∧ c.2.Consistent := by
      intro c hc
      cases previous with
      | none => cases hc
      | some p => exact (hp p rfl).of_mem hc
    rcases visit_ok ok with rfl | ⟨t, n, rfl⟩ | ⟨t, rfl⟩ | ⟨t, hs, s', _, rfl⟩
    · exact consistent_missing _
    · exact consistent_file _ _ _
    · exact consistent_folder .nil fun c hc => absurd hc List.not_mem_nil
    · have below : ∀ h prior t s, (∀ p ∈ prior, Snapshot.Consistent p) →
          (visit q recursive depth h prior t).result = .ok s → s.Consistent :=
        fun _ _ _ _ hp ok => ih hp ok
      have start : Gathered.Consistent (σ := σ) ⟨[], [], s'⟩ :=
        ⟨.nil, fun c hc => absurd hc List.not_mem_nil⟩
      have gathered := gather_consistent (q := q) known below hs start
      exact consistent_folder gathered.ordered gathered.children

end PathWatch.Capture
