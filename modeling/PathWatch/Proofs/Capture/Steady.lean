import PathWatch.Proofs.Capture.Frame

/-! While the answers stay the same, a capture is the one that is made from answers
which know no state at all. -/
namespace PathWatch

variable {H σ : Type}

namespace Queries

def frozen (q : Queries H σ) (s : σ) : Queries H Unit where
  id := q.id
  name := q.name
  isPresent h _ := ((q.isPresent h s).1, ())
  modified h _ := ((q.modified h s).1, ())
  isFolder h _ := ((q.isFolder h s).1, ())
  size h _ := ((q.size h s).1, ())
  children h _ := ((q.children h s).1, ())

/-- No question leads out of the states in `S`, and in all of these the answers are the same. -/
structure Steady (q : Queries H σ) (S : σ → Prop) : Prop where
  within : q.Within fun s t => S s → S t
  same : ∀ s t, S s → S t → q.frozen s = q.frozen t

end Queries

def Visit.bare (v : Visit σ) : Visit Unit := ⟨v.result, v.failures, ()⟩

theorem Visit.bare_settled (v : Visit σ) (id : FileId) :
    (v.settled id).bare = v.bare.settled id := by
  obtain ⟨e | snapshot, failures, s⟩ := v
  · cases h : e.isNotFound <;> simp [settled, bare, h]
  · rfl

namespace Capture

def Gathered.bare (g : Gathered σ) : Gathered Unit := ⟨g.children, g.failures, ()⟩

theorem Gathered.bare_add (g : Gathered σ) (name : String) (id : FileId) (prior : Option Snapshot)
    (v : Visit σ) : (g.add name id prior v).bare = g.bare.add name id prior v.bare := by
  obtain ⟨e | snapshot, failures, s⟩ := v <;> rfl

section

variable {q : Queries H σ} {S : σ → Prop} {s₀ : σ}
  {visit : H → Option Snapshot → σ → Visit σ} {still : H → Option Snapshot → Unit → Visit Unit}

theorem bare_gather (hv : ∀ h prior s, S s → (visit h prior s).bare = still h prior ())
    (after : ∀ h prior s, S s → S (visit h prior s).after) (known : List (String × Snapshot))
    (hs : List H) (g : Gathered σ) (hg : S g.after) :
    (gather q visit known hs g).bare = gather (q.frozen s₀) still known hs g.bare := by
  induction hs generalizing g with
  | nil => rfl
  | cons h hs ih =>
    rw [gather, ih, Gathered.bare_add, hv _ _ _ hg]
    · rfl
    · rw [add_after]
      exact after _ _ _ hg

theorem bare_look (steady : q.Steady S) (h₀ : S s₀)
    (hv : ∀ h prior s, S s → (visit h prior s).bare = still h prior ())
    (after : ∀ h prior s, S s → S (visit h prior s).after) (recursive : Bool) (h : H)
    (previous : Option Snapshot) {s : σ} (hs : S s) :
    (look q recursive visit h previous s).bare =
      look (q.frozen s₀) recursive still h previous () := by
  have same {t : σ} (ht : S t) : q.frozen s₀ = q.frozen t := steady.same s₀ t h₀ ht
  have isPresent : (q.frozen s₀).isPresent h () = ((q.isPresent h s).1, ()) := by
    rw [same hs]
    rfl
  have hs₁ := steady.within.isPresent h s hs
  rw [look, look, isPresent]
  generalize q.isPresent h s = answer at hs₁ ⊢
  obtain ⟨_ | _ | _, s₁⟩ := answer
  · rfl
  · rfl
  have modified : (q.frozen s₀).modified h () = ((q.modified h s₁).1, ()) := by
    rw [same hs₁]
    rfl
  have hs₂ := steady.within.modified h s₁ hs₁
  dsimp only
  rw [modified]
  generalize q.modified h s₁ = answer at hs₂ ⊢
  obtain ⟨_ | t, s₂⟩ := answer
  · rfl
  have isFolder : (q.frozen s₀).isFolder h () = ((q.isFolder h s₂).1, ()) := by
    rw [same hs₂]
    rfl
  have hs₃ := steady.within.isFolder h s₂ hs₂
  dsimp only
  rw [isFolder]
  generalize q.isFolder h s₂ = answer at hs₃ ⊢
  obtain ⟨_ | _ | _, s₃⟩ := answer
  · rfl
  · have size : (q.frozen s₀).size h () = ((q.size h s₃).1, ()) := by
      rw [same hs₃]
      rfl
    dsimp only
    rw [size]
    generalize q.size h s₃ = answer
    obtain ⟨_ | n, s₄⟩ := answer <;> rfl
  · dsimp only
    cases recursive with
    | false => rfl
    | true =>
      have children : (q.frozen s₀).children h () = ((q.children h s₃).1, ()) := by
        rw [same hs₃]
        rfl
      have hs₄ := steady.within.children h s₃ hs₃
      rw [if_pos rfl, if_pos rfl, children]
      generalize q.children h s₃ = answer at hs₄ ⊢
      obtain ⟨_ | hs, s₄⟩ := answer
      · rfl
      · let known := (previous.map Snapshot.contents).getD []
        have gathered : (gather q visit known hs ⟨[], [], s₄⟩).bare =
            gather (q.frozen s₀) still known hs ⟨[], [], ()⟩ :=
          bare_gather hv after known hs ⟨[], [], s₄⟩ hs₄
        exact congrArg (fun g : Gathered Unit =>
          (⟨.ok (.folder (q.id h) t g.children), g.failures, ()⟩ : Visit Unit)) gathered

end

variable {q : Queries H σ} {S : σ → Prop} {s₀ : σ}

theorem bare_visit (steady : q.Steady S) (h₀ : S s₀) (recursive : Bool) (depth : Nat) (h : H)
    (previous : Option Snapshot) {s : σ} (hs : S s) :
    (visit q recursive depth h previous s).bare =
      visit (q.frozen s₀) recursive depth h previous () := by
  induction depth generalizing h previous s with
  | zero => rfl
  | succ depth ih =>
    rw [visit, visit, Visit.bare_settled]
    rw [bare_look steady h₀ (fun h prior s hs => ih h prior hs)
      (fun h prior s => visit_within steady.within recursive depth h prior s) recursive h previous hs]
    rfl

end Capture

end PathWatch
