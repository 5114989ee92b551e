import PathWatch.Diagnostics

/-! The life of one receiver of reports: what it was given and what it still holds are
the reports that found room in its queue. Once cut off it gives what it holds, and
says that nothing will come only when that is gone. -/
namespace PathWatch

def Received.report? : Received → Option Diagnostic
  | .report x => some x
  | _ => none

namespace Receiver

inductive Move
  | offered (x : Diagnostic)
  | asked
  | abandoned
  | cut
deriving DecidableEq

namespace Move

def apply (capacity : Nat) : Move → Receiver → Receiver
  | offered x, r => r.offer capacity x
  | asked, r => r.take.2
  | abandoned, r => { r with queue := [], dropped := true }
  | cut, r => { r with connected := false }

def answer? : Move → Receiver → Option Received
  | asked, r => some r.take.1
  | _, _ => none

def admits (capacity : Nat) : Move → Receiver → List Diagnostic
  | offered x, r => if r.queue.length < capacity then [x] else []
  | _, _ => []

end Move

section

variable (capacity : Nat)

def moved (moves : List Move) (r : Receiver) : Receiver :=
  moves.foldl (fun r m => m.apply capacity r) r

def answers : List Move → Receiver → List Received
  | [], _ => []
  | m :: moves, r => (m.answer? r).toList ++ answers moves (m.apply capacity r)

/-- The reports let in until the receiver is cut off. -/
def admitted : List Move → Receiver → List Diagnostic
  | [], _ => []
  | .cut :: _, _ => []
  | m :: moves, r => m.admits capacity r ++ admitted moves (m.apply capacity r)

end

variable {capacity : Nat} {r : Receiver} {moves : List Move}

theorem moved_append (moves more : List Move) :
    r.moved capacity (moves ++ more) = (r.moved capacity moves).moved capacity more :=
  List.foldl_append

theorem answers_append (moves more : List Move) : r.answers capacity (moves ++ more) =
    r.answers capacity moves ++ (r.moved capacity moves).answers capacity more := by
  induction moves generalizing r with
  | nil => rfl
  | cons m moves ih =>
    rw [List.cons_append, answers, answers, ih, List.append_assoc]
    rfl

theorem take_of_nil (empty : r.queue = []) :
    r.take = (if r.connected then .empty else .disconnected, r) := by
  simp [take, empty]

theorem take_of_cons {x : Diagnostic} {queue : List Diagnostic} (first : r.queue = x :: queue) :
    r.take = (.report x, { r with queue }) := by
  simp [take, first]

namespace Move

theorem length_apply (m : Move) (h : r.queue.length ≤ capacity) :
    (m.apply capacity r).queue.length ≤ capacity := by
  cases m with
  | offered x =>
    rw [apply, offer]
    split
    · exact h
    · split
      · exact h
      · split
        · next room => simpa using Nat.succ_le_of_lt room
        · exact h
  | asked =>
    cases hq : r.queue with
    | nil => rwa [apply, take_of_nil hq]
    | cons x queue =>
      rw [hq, List.length_cons] at h
      rw [apply, take_of_cons hq]
      exact Nat.le_of_succ_le h
  | abandoned => exact Nat.zero_le _
  | cut => exact h

theorem dropped_apply {m : Move} (kept : m ≠ abandoned) (capacity : Nat) (r : Receiver) :
    (m.apply capacity r).dropped = r.dropped := by
  cases m with
  | offered x =>
    rw [apply, offer]
    split
    · rfl
    · split
      · rfl
      · split <;> rfl
  | asked => cases hq : r.queue <;> simp [apply, take, hq]
  | abandoned => exact absurd rfl kept
  | cut => rfl

theorem connected_apply {m : Move} (uncut : m ≠ cut) (here : r.dropped = false) :
    (m.apply capacity r).connected = r.connected := by
  cases m with
  | offered x =>
    rw [apply, offer]
    split
    · rfl
    · split
      · next gone => simp [here] at gone
      · split <;> rfl
  | asked => cases hq : r.queue <;> simp [apply, take, hq]
  | abandoned => rfl
  | cut => exact absurd rfl uncut

theorem queue_apply {m : Move} (kept : m ≠ abandoned) (capacity : Nat) (here : r.dropped = false) :
    (m.answer? r).toList.filterMap Received.report? ++ (m.apply capacity r).queue =
      r.queue ++ if r.connected then m.admits capacity r else [] := by
  cases m with
  | offered x =>
    cases on : r.connected with
    | false => simp [answer?, apply, offer, on]
    | true =>
      by_cases room : r.queue.length < capacity <;>
        simp [answer?, apply, offer, admits, on, here, room]
  | asked =>
    cases hq : r.queue with
    | nil =>
      cases on : r.connected <;> simp [answer?, apply, admits, take, hq, on, Received.report?]
    | cons x queue => simp [answer?, apply, admits, take, hq, Received.report?]
  | abandoned => exact absurd rfl kept
  | cut => simp [answer?, apply, admits]

theorem connected_of_answer? {m : Move} (h : m.answer? r = some .disconnected) :
    r.connected = false := by
  cases m with
  | asked =>
    cases hq : r.queue with
    | nil =>
      rw [answer?, take_of_nil hq] at h
      cases on : r.connected with
      | false => rfl
      | true => simp [on] at h
    | cons x queue => simp [answer?, take, hq] at h
  | _ => cases h

end Move

theorem length_moved (h : r.queue.length ≤ capacity) :
    (moved capacity moves r).queue.length ≤ capacity := by
  induction moves generalizing r with
  | nil => exact h
  | cons m moves ih => exact ih (m.length_apply h)

theorem admitted_cons {m : Move} (uncut : m ≠ .cut) (moves : List Move) (r : Receiver) :
    r.admitted capacity (m :: moves) =
      m.admits capacity r ++ (m.apply capacity r).admitted capacity moves := by
  cases m with
  | cut => exact absurd rfl uncut
  | _ => rfl

/-- What was taken and what the queue still holds are what it held and the reports let in. -/
theorem taken_append_queue (here : r.dropped = false) (kept : .abandoned ∉ moves) :
    (answers capacity moves r).filterMap Received.report? ++ (moved capacity moves r).queue =
      r.queue ++ if r.connected then admitted capacity moves r else [] := by
  induction moves generalizing r with
  | nil => simp [answers, moved, admitted]
  | cons m moves ih =>
    rw [List.mem_cons, not_or] at kept
    have still : m ≠ .abandoned := Ne.symm kept.1
    have first := m.queue_apply still capacity here
    have rest := ih ((m.dropped_apply still capacity r).trans here) kept.2
    calc
      _ = (m.answer? r).toList.filterMap Received.report? ++
          ((answers capacity moves (m.apply capacity r)).filterMap Received.report? ++
            (moved capacity moves (m.apply capacity r)).queue) := by
        rw [answers, List.filterMap_append, List.append_assoc]
        rfl
      _ = r.queue ++ ((if r.connected then m.admits capacity r else []) ++
          if (m.apply capacity r).connected then admitted capacity moves (m.apply capacity r)
            else []) := by
        rw [rest, ← List.append_assoc, first, List.append_assoc]
      _ = _ := by
        by_cases uncut : m = .cut
        · subst uncut
          simp [Move.apply, Move.admits, admitted]
        · rw [m.connected_apply uncut here, admitted_cons uncut]
          cases r.connected <;> rfl

theorem not_disconnected (on : r.connected = true) (here : r.dropped = false)
    (kept : .abandoned ∉ moves) (uncut : .cut ∉ moves) :
    .disconnected ∉ answers capacity moves r := by
  induction moves generalizing r with
  | nil => exact List.not_mem_nil
  | cons m moves ih =>
    rw [List.mem_cons, not_or] at kept uncut
    rw [answers, List.mem_append, Option.mem_toList, not_or]
    refine ⟨fun h => ?_, ih ?_ ?_ kept.2 uncut.2⟩
    · rw [Move.connected_of_answer? h] at on
      cases on
    · rwa [Move.connected_apply (Ne.symm uncut.1) here]
    · rwa [Move.dropped_apply (Ne.symm kept.1)]

theorem answers_of_cut (cut : r.connected = false) (kept : .abandoned ∉ moves) :
    answers capacity moves r = (r.queue.take (moves.count .asked)).map .report ++
      List.replicate (moves.count .asked - r.queue.length) .disconnected := by
  induction moves generalizing r with
  | nil => simp [answers]
  | cons m moves ih =>
    rw [List.mem_cons, not_or] at kept
    cases m with
    | abandoned => exact absurd rfl kept.1
    | offered x =>
      have same : r.offer capacity x = r := by simp [offer, cut]
      simpa [answers, Move.answer?, Move.apply, same] using ih cut kept.2
    | cut =>
      have rest := ih (r := { r with connected := false }) rfl kept.2
      simpa [answers, Move.answer?, Move.apply] using rest
    | asked =>
      cases hq : r.queue with
      | nil =>
        have rest := ih cut kept.2
        simp [answers, Move.answer?, Move.apply, take_of_nil hq, cut, rest, hq, List.replicate_succ]
      | cons x queue =>
        have rest := ih (r := { r with queue }) cut kept.2
        simp [answers, Move.answer?, Move.apply, take_of_cons hq, rest]

def attended (r : Receiver) : Bool := r.connected && !r.dropped

theorem connected_offer (capacity : Nat) (x : Diagnostic) :
    (r.offer capacity x).connected = r.attended := by
  cases on : r.connected with
  | false => simp [offer, attended, on]
  | true =>
    cases gone : r.dropped with
    | true => simp [offer, attended, on, gone]
    | false => by_cases room : r.queue.length < capacity <;> simp [offer, attended, on, gone, room]

theorem Move.attended_apply (m : Move) :
    (m.apply capacity r).attended = (r.attended && decide (m ≠ .cut ∧ m ≠ .abandoned)) := by
  cases m with
  | offered x =>
    have kept := Move.dropped_apply (m := .offered x) nofun capacity r
    have on := r.connected_offer capacity x
    rw [Move.apply] at kept ⊢
    rw [attended, on, kept, attended]
    cases r.connected <;> cases r.dropped <;> rfl
  | asked => cases hq : r.queue <;> simp [Move.apply, take, hq, attended]
  | abandoned => simp [Move.apply, attended]
  | cut => simp [Move.apply, attended]

theorem attended_moved : (moved capacity moves r).attended =
    (r.attended && decide (.cut ∉ moves ∧ .abandoned ∉ moves)) := by
  induction moves generalizing r with
  | nil => simp [moved]
  | cons m moves ih =>
    rw [moved, List.foldl_cons, ← moved, ih, m.attended_apply, Bool.and_assoc, ← Bool.decide_and]
    congr 2
    simp only [List.mem_cons, not_or, eq_iff_iff, ne_eq, eq_comm (a := m)]
    exact and_and_and_comm

end Receiver

end PathWatch
