import PathWatch.Proofs.Bindings
import PathWatch.Proofs.Cycle.Aloof

/-! A delivery calls the bindings that are there when it begins and still there
when their turn comes, whatever its own calls do to the bindings meanwhile. -/
namespace PathWatch.Cycle

variable {H L σ : Type} {env : Surroundings H L σ} {here : Focus σ (Watcher H L)}

variable (here) in
/-- Bindings were made and taken away on the way from one state to the other. -/
def Rebound (s t : σ) : Prop := ∃ edits, (here.get t).bindings = (here.get s).bindings.edit edits

namespace Rebound

theorem refl (s : σ) : Rebound here s s := ⟨[], rfl⟩

theorem trans {s t u : σ} (h : Rebound here s t) (h' : Rebound here t u) : Rebound here s u := by
  obtain ⟨edits, he⟩ := h
  obtain ⟨later, hl⟩ := h'
  exact ⟨edits ++ later, by rw [hl, he, Bindings.edit_append]⟩

theorem emit (d : Diagnostic) (s : σ) : Rebound here s (emit here d s) := by
  refine ⟨[], ?_⟩
  rw [Cycle.emit, here.get_update]
  rfl

variable (calls : ∀ l e s, Rebound here s (env.call l e s).2)
include calls

theorem replay {acts : List (Act H L)} {file : FileId} (h : ∀ a ∈ acts, a.IsDelivery file) (s : σ) :
    Rebound here s (replay env here acts s) := by
  refine replay_induction (motive := fun t => Rebound here s t) (refl s) ?_
  intro a ha t ht
  have delivery := h a ha
  cases a with
  | report d => exact ht.trans (emit d t)
  | dispatch => exact ht
  | call j b e => exact ht.trans (calls _ _ _)
  | _ => exact delivery.elim

/-- A delivery that a listener starts from inside its call does nothing that it could not do
with the bindings itself. -/
theorem dispatch (file : FileId) (event : ChangeEvent) (s : σ) :
    Rebound here s (dispatch env here file event s).2 := by
  rw [← replay_dispatchActs]
  exact replay calls (fun a => isDelivery_of_mem_dispatchActs env here) s

end Rebound

def Act.outcome? (env : Surroundings H L σ) : Act H L → σ → Option (Binding L × Outcome)
  | .call _ b e, s => some (b, (env.call b.listener e s).1)
  | _, _ => none

def Act.report? : Act H L → Option Diagnostic
  | .report d => some d
  | _ => none

variable (env here) in
def outcomes : List (Act H L) → σ → List (Binding L × Outcome)
  | [], _ => []
  | a :: acts, s => (a.outcome? env s).toList ++ outcomes acts (a.apply env here s)

theorem outcomes_append (xs ys : List (Act H L)) (s : σ) :
    outcomes env here (xs ++ ys) s =
      outcomes env here xs s ++ outcomes env here ys (replay env here xs s) := by
  induction xs generalizing s with
  | nil => rfl
  | cons a xs ih => rw [List.cons_append, outcomes, outcomes, ih, List.append_assoc]; rfl

section

variable {file : FileId} {event : ChangeEvent}

theorem outcomes_callAct (b : Binding L) (s : σ) :
    outcomes env here (callAct env file event b s) s = [(b, (env.call b.listener event s).1)] := by
  rw [callAct]
  cases (env.call b.listener event s).1.diagnostic? file b.number event <;> rfl

theorem callActs_held {b : Binding L} {s : σ}
    (held : (here.get s).bindings.holds file b.number = true) (bs : List (Binding L)) :
    callActs env here file event (b :: bs) s = callAct env file event b s ++
      callActs env here file event bs (replay env here (callAct env file event b s) s) :=
  if_pos held

theorem callActs_not_held {b : Binding L} {s : σ}
    (held : (here.get s).bindings.holds file b.number = false) (bs : List (Binding L)) :
    callActs env here file event (b :: bs) s = callActs env here file event bs s :=
  if_neg (Bool.eq_false_iff.1 held)

theorem callsAt_callActs (bs : List (Binding L)) (s : σ) :
    callsAt file (callActs env here file event bs s) =
      (outcomes env here (callActs env here file event bs s) s).map fun c => (c.1, event) := by
  induction bs generalizing s with
  | nil => rfl
  | cons b bs ih =>
    cases held : (here.get s).bindings.holds file b.number with
    | true =>
      rw [callActs_held held, callsAt_append, callsAt_callAct, outcomes_append, outcomes_callAct, ih]
      rfl
    | false => rw [callActs_not_held held, ih]

end

end PathWatch.Cycle
