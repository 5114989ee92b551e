import PathWatch.Proofs.Cycle.Delivery

/-! The counts of a round are the numbers of its acts. -/
namespace PathWatch.Cycle

variable {H L σ : Type}

namespace Act

def isSnapshot : Act H L → Bool
  | capture _ _ result => result.isOk
  | _ => false

def isDispatch : Act H L → Bool
  | dispatch .. => true
  | _ => false

def isCall : Act H L → Bool
  | call .. => true
  | _ => false

def tellsListener : Act H L → Bool
  | report (.listenerFailed ..) => true
  | report (.listenerPanicked ..) => true
  | _ => false

def tellsCapture : Act H L → Bool
  | report (.captureFailed ..) => true
  | _ => false

def tellsSlow : Act H L → Bool
  | report (.slowCapture ..) => true
  | _ => false

end Act

structure Counted (acts : List (Act H L)) (c d : Counts) : Prop where
  polled : d.polled = c.polled + acts.countP Act.isSnapshot
  events : d.events = c.events + acts.countP Act.isDispatch
  calls : d.delivered + d.listenerFailures =
    c.delivered + c.listenerFailures + acts.countP Act.isCall
  listenerFailures : d.listenerFailures = c.listenerFailures + acts.countP Act.tellsListener
  captureFailures : d.captureFailures = c.captureFailures + acts.countP Act.tellsCapture

namespace Counted

variable {acts acts' : List (Act H L)} {c d e : Counts}

theorem nil (c : Counts) : Counted ([] : List (Act H L)) c c := ⟨rfl, rfl, rfl, rfl, rfl⟩

theorem append (h : Counted acts c d) (h' : Counted acts' d e) : Counted (acts ++ acts') c e := by
  obtain ⟨p, ev, cl, l, f⟩ := h
  obtain ⟨p', ev', cl', l', f'⟩ := h'
  constructor <;> rw [List.countP_append] <;> omega

theorem unique (h : Counted acts c d) (h' : Counted acts c e) : d = e := by
  obtain ⟨p, ev, cl, l, f⟩ := h
  obtain ⟨p', ev', cl', l', f'⟩ := h'
  obtain ⟨_, _, _, _, _⟩ := d
  obtain ⟨_, _, _, _, _⟩ := e
  simp only at p p' ev ev' cl cl' l l' f f'
  rw [Counts.mk.injEq]
  omega

theorem perm (h : Counted acts c d) (same : acts.Perm acts') : Counted acts' c d := by
  obtain ⟨p, ev, cl, l, f⟩ := h
  constructor <;> rw [← same.countP_eq] <;> assumption

end Counted

/-- All acts but the reports of slow captures, which tell the time that a capture took. -/
def untimed (acts : List (Act H L)) : List (Act H L) := acts.filter fun a => !a.tellsSlow

theorem untimed_append (acts acts' : List (Act H L)) :
    untimed (acts ++ acts') = untimed acts ++ untimed acts' :=
  List.filter_append acts acts'

theorem countP_untimed {p : Act H L → Bool}
    (hp : ∀ id elapsed, p (.report (.slowCapture id elapsed)) = false) (acts : List (Act H L)) :
    (untimed acts).countP p = acts.countP p := by
  rw [untimed, List.countP_filter]
  congr 1
  funext a
  cases a with
  | report d => cases d <;> simp [Act.tellsSlow, hp]
  | _ => simp [Act.tellsSlow]

theorem Counted.untimed {acts : List (Act H L)} {c d : Counts} (h : Counted acts c d) :
    Counted (untimed acts) c d := by
  obtain ⟨p, ev, cl, l, f⟩ := h
  constructor <;> rw [countP_untimed fun _ _ => rfl] <;> assumption

variable {env : Surroundings H L σ} {here : Focus σ (Watcher H L)}

section

variable {file : FileId} {event : ChangeEvent} {b : Binding L} {s : σ} (c : Counts) (d : Delivery)

theorem counted_accepted
    (h : (env.call b.listener event s).1.diagnostic? file b.number event = none) :
    Counted (callAct env file event b s) (c.addDelivery d)
      (c.addDelivery { d with delivered := d.delivered + 1 }) := by
  rw [callAct, h]
  have calls : c.delivered + (d.delivered + 1) + (c.listenerFailures + d.failed) =
      c.delivered + d.delivered + (c.listenerFailures + d.failed) + 1 := by omega
  exact ⟨rfl, rfl, calls, rfl, rfl⟩

theorem counted_refused {report : Diagnostic}
    (h : (env.call b.listener event s).1.diagnostic? file b.number event = some report) :
    Counted (callAct env file event b s) (c.addDelivery d)
      (c.addDelivery { d with failed := d.failed + 1 }) := by
  rw [callAct, h]
  have calls : c.delivered + d.delivered + (c.listenerFailures + (d.failed + 1)) =
      c.delivered + d.delivered + (c.listenerFailures + d.failed) + 1 := by omega
  cases o : (env.call b.listener event s).1 <;> rw [o] at h <;> cases h <;>
    exact ⟨rfl, rfl, calls, rfl, rfl⟩

end

theorem counted_callActs (file : FileId) (event : ChangeEvent) (bs : List (Binding L))
    (c : Counts) (d : Delivery) (s : σ) :
    Counted (callActs env here file event bs s) (c.addDelivery d)
      (c.addDelivery (callEach env here file event bs d s).1) := by
  induction bs generalizing d s with
  | nil => exact .nil _
  | cons b bs ih =>
    cases held : (here.get s).bindings.holds file b.number with
    | false =>
      rw [callActs_not_held held]
      simp only [callEach, held]
      exact ih d s
    | true =>
      rw [callActs_held held, replay_callAct]
      simp only [callEach, held, if_true]
      cases h : (env.call b.listener event s).1.diagnostic? file b.number event with
      | none => exact (counted_accepted c d h).append (ih _ _)
      | some report => exact (counted_refused c d h).append (ih _ _)

theorem counted_dispatchActs (file : FileId) (event : ChangeEvent) (c : Counts) (s : σ) :
    Counted (dispatchActs env here file event s) c
      (c.addDelivery (dispatch env here file event s).1) := by
  have first : Counted [Act.dispatch (H := H) (L := L) file event] c (c.addDelivery ⟨0, 0⟩) :=
    ⟨rfl, rfl, rfl, rfl, rfl⟩
  exact first.append (counted_callActs file event _ c ⟨0, 0⟩ s)

variable (env here) in
theorem counted_deliverActs (id : FileId) (serial : Nat) (es : List ChangeEvent) (c : Counts)
    (s : σ) : Counted (deliverActs env here id serial es s) c
      (deliver env here id serial es c s).1 := by
  induction es generalizing c s with
  | nil => exact .nil c
  | cons e es ih =>
    simp only [deliverActs, deliver]
    split
    · rw [replay_dispatchActs]
      exact (counted_dispatchActs id e c s).append (ih _ _)
    · exact .nil c

theorem counted_failureActs (failures : List Failure) (c : Counts) :
    Counted (failureActs (H := H) (L := L) failures) c
      { c with captureFailures := c.captureFailures + failures.length } := by
  induction failures generalizing c with
  | nil => exact .nil c
  | cons f failures ih =>
    have first : Counted [Act.report (H := H) (L := L) (.captureFailed f.file f.error.message)] c
        c.addFailedCapture := ⟨rfl, rfl, rfl, rfl, rfl⟩
    have rest := first.append (ih _)
    rwa [List.length_cons, Nat.add_comm failures.length, ← Nat.add_assoc]

def captured (result : Except FsError Snapshot) (c : Counts) : Counts :=
  { c with polled := c.polled + result.isOk.toNat }

theorem counted_captureActs (id : FileId) (watch : Watch H) (c : Counts) (s : σ) :
    Counted (captureActs env here id watch s) c (captured (visitOf env watch s).result c) := by
  have polled : (visitOf env watch s).result.isOk.toNat =
      [Act.capture (L := L) id watch (visitOf env watch s).result].countP Act.isSnapshot := by
    cases (visitOf env watch s).result <;> rfl
  have first : Counted [Act.capture (L := L) id watch (visitOf env watch s).result] c
      (captured (visitOf env watch s).result c) :=
    ⟨congrArg (c.polled + ·) polled, rfl, rfl, rfl, rfl⟩
  rw [captureActs]
  dsimp only
  split
  · have slow (d : Counts) (elapsed : Duration) :
        Counted [Act.report (H := H) (L := L) (.slowCapture id elapsed)] d d :=
      ⟨rfl, rfl, rfl, rfl, rfl⟩
    exact first.append (slow _ _)
  · exact first

variable (env here) in
theorem counted_settleActs (id : FileId) (watch : Watch H) (v : Visit σ) (c : Counts) :
    Counted (settleActs env here id watch v) (captured v.result c)
      (settle env here id watch v c).1 := by
  obtain ⟨e | snapshot, failures, s⟩ := v
  · exact ⟨rfl, rfl, rfl, rfl, rfl⟩
  · have failed := counted_failureActs (H := H) (L := L) failures (captured (.ok snapshot) c)
    have delivered := counted_deliverActs env here id watch.serial
      (changes watch.last snapshot) (c.addCapture failures.length) (emitFailures here failures s)
    have stored (d : Counts) :
        Counted [Act.store (H := H) (L := L) id watch.serial snapshot] d d :=
      ⟨rfl, rfl, rfl, rfl, rfl⟩
    simp only [settleActs, settle, replay_failureActs]
    exact (failed.append delivered).append (stored _)

theorem counted_pollActs (id : FileId) (c : Counts) (s : σ) :
    Counted (pollActs env here id s) c (poll env here id c s).1 := by
  simp only [pollActs, poll]
  cases (here.get s).watch? id with
  | none => exact .nil c
  | some watch =>
    have settled := counted_settleActs env here id watch (captureWatch env here id watch s) c
    rw [captureWatch_result] at settled
    exact (counted_captureActs id watch c s).append settled

theorem counted_pollEachActs (ids : List FileId) (c : Counts) (s : σ) :
    Counted (pollEachActs env here ids s) c (pollEach env here ids c s).1 := by
  induction ids generalizing c s with
  | nil => exact .nil c
  | cons id ids ih =>
    simp only [pollEachActs, pollEach]
    split
    · exact .nil c
    · rw [replay_pollActs env here id c]
      exact (counted_pollActs id c s).append (ih _ _)

variable (env here) in
theorem counted_roundActs (ids : List FileId) (s : σ) :
    Counted (roundActs env here ids s) {} (runInOrder env here ids s).1 :=
  (counted_pollEachActs ids {} s).append ⟨rfl, rfl, rfl, rfl, rfl⟩

end PathWatch.Cycle
