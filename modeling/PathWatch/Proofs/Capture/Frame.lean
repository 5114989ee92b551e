import PathWatch.Capture

/-! What every question to a handle leaves as it was, a capture leaves as it
was, however deep it goes and whatever the answers are. -/
namespace PathWatch

variable {H σ : Type}

structure Queries.Within (q : Queries H σ) (R : σ → σ → Prop) : Prop where
  refl : ∀ s, R s s
  trans : ∀ {a b c}, R a b → R b c → R a c
  isPresent : ∀ h s, R s (q.isPresent h s).2
  modified : ∀ h s, R s (q.modified h s).2
  isFolder : ∀ h s, R s (q.isFolder h s).2
  size : ∀ h s, R s (q.size h s).2
  children : ∀ h s, R s (q.children h s).2

namespace Capture

variable {q : Queries H σ} {R : σ → σ → Prop}

theorem settled_after (id : FileId) (v : Visit σ) : (v.settled id).after = v.after := by
  rw [Visit.settled]
  split
  · rfl
  · split <;> rfl

theorem add_after (g : Gathered σ) (name : String) (id : FileId) (prior : Option Snapshot)
    (v : Visit σ) : (g.add name id prior v).after = v.after := by
  unfold Gathered.add
  split <;> rfl

theorem gather_within (hq : q.Within R) {visit : H → Option Snapshot → σ → Visit σ}
    (hv : ∀ h p s, R s (visit h p s).after) (known : List (String × Snapshot)) (hs : List H)
    (g : Gathered σ) : R g.after (gather q visit known hs g).after := by
  induction hs generalizing g with
  | nil => exact hq.refl _
  | cons h hs ih =>
    refine hq.trans ?_ (ih _)
    rw [add_after]
    exact hv _ _ _

theorem look_within (hq : q.Within R) (recursive : Bool)
    {visit : H → Option Snapshot → σ → Visit σ} (hv : ∀ h p s, R s (visit h p s).after)
    (h : H) (previous : Option Snapshot) (s : σ) :
    R s (look q recursive visit h previous s).after := by
  rw [look]
  have h1 := hq.isPresent h s
  generalize q.isPresent h s = answer at h1 ⊢
  obtain ⟨_ | _ | _, s₁⟩ := answer
  · exact h1
  · exact h1
  have h2 := hq.trans h1 (hq.modified h s₁)
  dsimp only
  generalize q.modified h s₁ = answer at h2 ⊢
  obtain ⟨_ | _, s₂⟩ := answer
  · exact h2
  have h3 := hq.trans h2 (hq.isFolder h s₂)
  dsimp only
  generalize q.isFolder h s₂ = answer at h3 ⊢
  obtain ⟨_ | _ | _, s₃⟩ := answer
  · exact h3
  · have h4 := hq.trans h3 (hq.size h s₃)
    dsimp only
    generalize q.size h s₃ = answer at h4 ⊢
    obtain ⟨_ | _, s₄⟩ := answer <;> exact h4
  · cases recursive with
    | false => exact h3
    | true =>
      have h4 := hq.trans h3 (hq.children h s₃)
      dsimp only
      rw [if_pos rfl]
      generalize q.children h s₃ = answer at h4 ⊢
      obtain ⟨_ | hs, s₄⟩ := answer
      · exact h4
      · exact hq.trans h4 (gather_within hq hv _ hs ⟨[], [], s₄⟩)

theorem visit_within (hq : q.Within R) (recursive : Bool) (depth : Nat) (h : H)
    (previous : Option Snapshot) (s : σ) : R s (visit q recursive depth h previous s).after := by
  induction depth generalizing h previous s with
  | zero => exact hq.refl s
  | succ depth ih =>
    rw [visit, settled_after]
    exact look_within hq recursive ih h previous s

end Capture

end PathWatch
