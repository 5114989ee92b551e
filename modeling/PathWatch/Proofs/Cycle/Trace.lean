import PathWatch.Cycle
import PathWatch.Proofs.Capture.Frame

/-! What a round does, one act after the other. Replaying the acts leads to the
state in which the round ends, so what holds of all acts holds of the round. -/
namespace PathWatch

structure Surroundings.Within {H L σ : Type} (env : Surroundings H L σ) (R : σ → σ → Prop) : Prop
    extends questions : env.toQueries.Within R where
  call : ∀ l e s, R s (env.call l e s).2

namespace Cycle

/-- A dispatch by itself changes nothing: it is the moment at which an event is
passed on, before any of its calls. -/
inductive Act (H L : Type)
  | capture (id : FileId) (watch : Watch H) (result : Except FsError Snapshot)
  | report (d : Diagnostic)
  | dispatch (id : FileId) (event : ChangeEvent)
  | call (file : FileId) (binding : Binding L) (event : ChangeEvent)
  | store (id : FileId) (serial : Nat) (snapshot : Snapshot)
  | finish

variable {H L σ : Type} (env : Surroundings H L σ) (here : Focus σ (Watcher H L))

def visitOf (watch : Watch H) (s : σ) : Visit σ :=
  Capture.visit env.toQueries watch.recursive (env.depth s) watch.file watch.last s

def Act.apply : Act H L → σ → σ
  | .capture _ watch _, s => (visitOf env watch s).after
  | .report d, s => emit here d s
  | .dispatch .., s => s
  | .call _ b event, s => (env.call b.listener event s).2
  | .store id serial snapshot, s => here.update (·.store id serial snapshot) s
  | .finish, s => here.update (fun w => { w with cycles := w.cycles + 1 }) s

def replay (acts : List (Act H L)) (s : σ) : σ := acts.foldl (fun s a => a.apply env here s) s

theorem replay_append (xs ys : List (Act H L)) (s : σ) :
    replay env here (xs ++ ys) s = replay env here ys (replay env here xs s) :=
  List.foldl_append

variable {env here} in
theorem replay_induction {acts : List (Act H L)} {motive : σ → Prop} {s : σ} (start : motive s)
    (step : ∀ a ∈ acts, ∀ t, motive t → motive (a.apply env here t)) :
    motive (replay env here acts s) := by
  induction acts generalizing s with
  | nil => exact start
  | cons a acts ih =>
    have next := step a List.mem_cons_self s start
    apply ih next
    intro b hb
    exact step b (List.mem_cons_of_mem a hb)

def Throughout (holds : σ → Act H L → Prop) : List (Act H L) → σ → Prop
  | [], _ => True
  | a :: acts, s => holds s a ∧ Throughout holds acts (a.apply env here s)

def callAct (file : FileId) (event : ChangeEvent) (b : Binding L) (s : σ) : List (Act H L) :=
  .call file b event ::
    (((env.call b.listener event s).1.diagnostic? file b.number event).map Act.report).toList

def callActs (file : FileId) (event : ChangeEvent) : List (Binding L) → σ → List (Act H L)
  | [], _ => []
  | b :: bs, s =>
    if (here.get s).bindings.holds file b.number then
      let acts := callAct env file event b s
      acts ++ callActs file event bs (replay env here acts s)
    else callActs file event bs s

def dispatchActs (file : FileId) (event : ChangeEvent) (s : σ) : List (Act H L) :=
  .dispatch file event :: callActs env here file event ((here.get s).bindings.of file) s

def deliverActs (id : FileId) (serial : Nat) : List ChangeEvent → σ → List (Act H L)
  | [], _ => []
  | e :: es, s =>
    if (here.get s).isCurrent id serial then
      let acts := dispatchActs env here id e s
      acts ++ deliverActs id serial es (replay env here acts s)
    else []

def captureActs (id : FileId) (watch : Watch H) (s : σ) : List (Act H L) :=
  let v := visitOf env watch s
  let elapsed : Duration := ⟨(env.clock v.after).nanos - (env.clock s).nanos⟩
  .capture id watch v.result ::
    if (here.get v.after).slowAfter.nanos ≤ elapsed.nanos then [.report (.slowCapture id elapsed)]
    else []

def failureActs (failures : List Failure) : List (Act H L) :=
  failures.map fun f => .report (.captureFailed f.file f.error.message)

def settleActs (id : FileId) (watch : Watch H) (v : Visit σ) : List (Act H L) :=
  match v.result with
  | .error e => [.report (.captureFailed id e.message)]
  | .ok snapshot =>
    let reports := failureActs v.failures
    reports ++ deliverActs env here id watch.serial (changes watch.last snapshot)
      (replay env here reports v.after) ++ [.store id watch.serial snapshot]

def pollActs (id : FileId) (s : σ) : List (Act H L) :=
  match (here.get s).watch? id with
  | none => []
  | some watch =>
    captureActs env here id watch s ++ settleActs env here id watch (captureWatch env here id watch s)

def pollEachActs : List FileId → σ → List (Act H L)
  | [], _ => []
  | id :: ids, s =>
    if (here.get s).closed then []
    else
      let acts := pollActs env here id s
      acts ++ pollEachActs ids (replay env here acts s)

def roundActs (ids : List FileId) (s : σ) : List (Act H L) :=
  pollEachActs env here ids s ++ [.finish]

section

variable {env here} {holds : σ → Act H L → Prop} {s : σ}

theorem throughout_append {xs ys : List (Act H L)} :
    Throughout env here holds (xs ++ ys) s ↔
      Throughout env here holds xs s ∧ Throughout env here holds ys (replay env here xs s) := by
  induction xs generalizing s with
  | nil => exact (iff_of_eq (true_and _)).symm
  | cons a xs ih =>
    simp only [List.cons_append, Throughout, ih, and_assoc]
    rfl

theorem Throughout.at {pre post : List (Act H L)} {a : Act H L}
    (h : Throughout env here holds (pre ++ a :: post) s) : holds (replay env here pre s) a :=
  (throughout_append.1 h).2.1

theorem throughout_of_forall {acts : List (Act H L)} (h : ∀ a ∈ acts, ∀ t, holds t a) :
    Throughout env here holds acts s := by
  induction acts generalizing s with
  | nil => exact trivial
  | cons a acts ih =>
    have first := h a List.mem_cons_self s
    refine ⟨first, ih ?_⟩
    intro b hb
    exact h b (List.mem_cons_of_mem a hb)

end

theorem replay_callAct (file : FileId) (event : ChangeEvent) (b : Binding L) (s : σ) :
    replay env here (callAct env file event b s) s =
      match (env.call b.listener event s).1.diagnostic? file b.number event with
      | none => (env.call b.listener event s).2
      | some report => emit here report (env.call b.listener event s).2 := by
  rw [callAct]
  cases (env.call b.listener event s).1.diagnostic? file b.number event <;> rfl

theorem replay_callActs (file : FileId) (event : ChangeEvent) (bs : List (Binding L))
    (d : Delivery) (s : σ) : replay env here (callActs env here file event bs s) s =
      (callEach env here file event bs d s).2 := by
  induction bs generalizing d s with
  | nil => rfl
  | cons b bs ih =>
    simp only [callActs, callEach]
    split
    · rw [replay_append, replay_callAct]
      cases (env.call b.listener event s).1.diagnostic? file b.number event <;> exact ih _ _
    · exact ih d s

theorem replay_dispatchActs (file : FileId) (event : ChangeEvent) (s : σ) :
    replay env here (dispatchActs env here file event s) s =
      (dispatch env here file event s).2 :=
  replay_callActs env here file event _ ⟨0, 0⟩ s

theorem replay_deliverActs (id : FileId) (serial : Nat) (es : List ChangeEvent) (c : Counts)
    (s : σ) : replay env here (deliverActs env here id serial es s) s =
      (deliver env here id serial es c s).2 := by
  induction es generalizing c s with
  | nil => rfl
  | cons e es ih =>
    simp only [deliverActs, deliver]
    split
    · rw [replay_append, replay_dispatchActs]
      exact ih _ _
    · rfl

theorem captureWatch_eq (id : FileId) (watch : Watch H) (s : σ) :
    captureWatch env here id watch s =
      let v := visitOf env watch s
      let elapsed : Duration := ⟨(env.clock v.after).nanos - (env.clock s).nanos⟩
      if (here.get v.after).slowAfter.nanos ≤ elapsed.nanos then
        { v with after := emit here (.slowCapture id elapsed) v.after }
      else v :=
  rfl

theorem captureWatch_result (id : FileId) (watch : Watch H) (s : σ) :
    (captureWatch env here id watch s).result = (visitOf env watch s).result := by
  rw [captureWatch_eq]
  dsimp only
  split <;> rfl

theorem replay_captureActs (id : FileId) (watch : Watch H) (s : σ) :
    replay env here (captureActs env here id watch s) s =
      (captureWatch env here id watch s).after := by
  rw [captureWatch_eq, captureActs]
  dsimp only
  split <;> rfl

theorem replay_failureActs (failures : List Failure) (s : σ) :
    replay env here (failureActs failures) s = emitFailures here failures s := by
  simp only [replay, failureActs, emitFailures, List.foldl_map]
  rfl

theorem replay_settleActs (id : FileId) (watch : Watch H) (v : Visit σ) (c : Counts) :
    replay env here (settleActs env here id watch v) v.after = (settle env here id watch v c).2 := by
  obtain ⟨_ | snapshot, failures, s⟩ := v
  · rfl
  · simp only [settleActs, settle, replay_append, replay_failureActs]
    rw [replay_deliverActs env here id watch.serial _ (c.addCapture failures.length)]
    rfl

theorem replay_pollActs (id : FileId) (c : Counts) (s : σ) :
    replay env here (pollActs env here id s) s = (poll env here id c s).2 := by
  simp only [pollActs, poll]
  cases (here.get s).watch? id with
  | none => rfl
  | some watch =>
    dsimp only
    rw [replay_append, replay_captureActs, replay_settleActs]

theorem replay_pollEachActs (ids : List FileId) (c : Counts) (s : σ) :
    replay env here (pollEachActs env here ids s) s = (pollEach env here ids c s).2 := by
  induction ids generalizing c s with
  | nil => rfl
  | cons id ids ih =>
    simp only [pollEachActs, pollEach]
    split
    · rfl
    · rw [replay_append, replay_pollActs env here id c]
      exact ih _ _

section

variable {env here}

theorem pollEachActs_of_closed {s : σ} (closed : (here.get s).closed = true) (ids : List FileId) :
    pollEachActs env here ids s = [] := by
  cases ids with
  | nil => rfl
  | cons id ids => exact if_pos closed

theorem pollEachActs_of_open {s : σ} (opened : (here.get s).closed = false) (id : FileId)
    (ids : List FileId) : pollEachActs env here (id :: ids) s = pollActs env here id s ++
      pollEachActs env here ids (replay env here (pollActs env here id s) s) :=
  if_neg (Bool.eq_false_iff.1 opened)

theorem throughout_roundActs {holds : σ → Act H L → Prop}
    (polls : ∀ id s, (here.get s).closed = false →
      Throughout env here holds (pollActs env here id s) s)
    (finish : ∀ s, holds s .finish) (ids : List FileId) (s : σ) :
    Throughout env here holds (roundActs env here ids s) s := by
  have each : Throughout env here holds (pollEachActs env here ids s) s := by
    induction ids generalizing s with
    | nil => trivial
    | cons id ids ih =>
      cases closed : (here.get s).closed with
      | true =>
        rw [pollEachActs_of_closed closed]
        trivial
      | false =>
        rw [pollEachActs_of_open closed]
        exact throughout_append.2 ⟨polls id s closed, ih _⟩
  exact throughout_append.2 ⟨each, finish _, trivial⟩

end

theorem pollEachActs_append (xs ys : List FileId) (s : σ) :
    pollEachActs env here (xs ++ ys) s = pollEachActs env here xs s ++
      pollEachActs env here ys (replay env here (pollEachActs env here xs s) s) := by
  induction xs generalizing s with
  | nil => rfl
  | cons id xs ih =>
    rw [List.cons_append]
    cases closed : (here.get s).closed with
    | true =>
      rw [pollEachActs_of_closed closed, pollEachActs_of_closed closed]
      exact (pollEachActs_of_closed closed ys).symm
    | false =>
      rw [pollEachActs_of_open closed, pollEachActs_of_open closed, ih, replay_append,
        List.append_assoc]

theorem replay_roundActs (ids : List FileId) (s : σ) :
    replay env here (roundActs env here ids s) s = (runInOrder env here ids s).2 := by
  rw [roundActs, replay_append, replay_pollEachActs env here ids {}]
  rfl

end Cycle

end PathWatch
