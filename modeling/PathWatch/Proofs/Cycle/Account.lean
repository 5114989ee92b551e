import PathWatch.Proofs.Cycle.Polls
import PathWatch.Proofs.Diagnostics.Receiver

/-! The counts of a round against what can be told without them: the polls that it was made of,
the reports that went out, the calls with their ends, and what a receiver or a listener that
keeps count has got. -/
namespace PathWatch

def Focus.second {α β : Type} : Focus (α × β) β where
  get s := s.2
  set b s := (s.1, b)
  get_set _ _ := rfl
  set_get _ := rfl
  set_set _ _ _ := rfl

def Diagnostic.tellsListener : Diagnostic → Bool
  | listenerFailed .. => true
  | listenerPanicked .. => true
  | _ => false

theorem Receiver.offer_of_room (r : Receiver) (attended : r.attended = true) {capacity : Nat}
    (room : r.queue.length < capacity) (d : Diagnostic) :
    r.offer capacity d = { r with queue := r.queue ++ [d] } := by
  obtain ⟨connected, kept⟩ := Bool.and_eq_true_iff.1 attended
  rw [Bool.not_eq_true'] at kept
  simp [offer, connected, kept, room]

namespace Cycle

variable {H L σ : Type} {env : Surroundings H L σ} {here : Focus σ (Watcher H L)}

theorem countP_emitted {p : Act H L → Bool} {q : Diagnostic → Bool}
    (h : ∀ a, p a = a.report?.any q) (acts : List (Act H L)) :
    (emitted acts).countP q = acts.countP p := by
  rw [emitted, List.countP_filterMap]
  apply List.countP_congr
  intro a _
  rw [h]
  cases a.report? <;> rfl

theorem countP_tellsCapture (acts : List (Act H L)) :
    (emitted acts).countP Diagnostic.tellsCapture = acts.countP Act.tellsCapture := by
  apply countP_emitted
  intro a
  cases a with
  | report d => cases d <;> rfl
  | _ => rfl

theorem countP_tellsListener (acts : List (Act H L)) :
    (emitted acts).countP Diagnostic.tellsListener = acts.countP Act.tellsListener := by
  apply countP_emitted
  intro a
  cases a with
  | report d => cases d <;> rfl
  | _ => rfl

theorem length_dispatched (acts : List (Act H L)) :
    (dispatched acts).length = acts.countP Act.isDispatch := by
  rw [dispatched, List.length_filterMap_eq_countP]
  exact List.countP_congr fun a _ => by cases a <;> rfl

variable (env here) in
theorem length_outcomes (acts : List (Act H L)) (s : σ) :
    (outcomes env here acts s).length = acts.countP Act.isCall := by
  induction acts generalizing s with
  | nil => rfl
  | cons a acts ih =>
    rw [outcomes, List.length_append, ih, List.countP_cons, Nat.add_comm]
    cases a <;> rfl

theorem countP_results (acts : List (Act H L)) :
    (results acts).countP Except.isOk = acts.countP Act.isSnapshot := by
  rw [results, List.countP_filterMap]
  apply List.countP_congr
  intro a _
  cases a <;> simp [Act.isSnapshot, Act.result?]

variable (env here) in
def Balanced (acts : List (Act H L)) (s : σ) : Prop :=
  (outcomes env here acts s).countP (fun c => c.2 ≠ .accepted) = acts.countP Act.tellsListener

namespace Balanced

variable {acts xs ys : List (Act H L)} {s : σ}

theorem append (hx : Balanced env here xs s) (hy : Balanced env here ys (replay env here xs s)) :
    Balanced env here (xs ++ ys) s := by
  rw [Balanced, outcomes_append, List.countP_append, List.countP_append, hx, hy]

theorem of_silent (h : ∀ a ∈ acts, a.isCall = false ∧ a.tellsListener = false) :
    Balanced env here acts s := by
  have calls : (outcomes env here acts s).length = 0 := by
    rw [length_outcomes, List.countP_eq_zero]
    exact fun a ha => Bool.eq_false_iff.1 (h a ha).1
  have told : acts.countP Act.tellsListener = 0 := by
    rw [List.countP_eq_zero]
    exact fun a ha => Bool.eq_false_iff.1 (h a ha).2
  rw [Balanced, List.length_eq_zero_iff.1 calls, told]
  rfl

theorem callAct (file : FileId) (event : ChangeEvent) (b : Binding L) (s : σ) :
    Balanced env here (callAct env file event b s) s := by
  rw [Balanced, outcomes_callAct, Cycle.callAct]
  cases h : (env.call b.listener event s).1 <;> rfl

theorem callActs (file : FileId) (event : ChangeEvent) (bs : List (Binding L)) (s : σ) :
    Balanced env here (callActs env here file event bs s) s := by
  induction bs generalizing s with
  | nil => rfl
  | cons b bs ih =>
    cases held : (here.get s).bindings.holds file b.number with
    | true =>
      rw [callActs_held held]
      exact (callAct file event b s).append (ih _)
    | false =>
      rw [callActs_not_held held]
      exact ih s

theorem deliverActs (id : FileId) (serial : Nat) (es : List ChangeEvent) (s : σ) :
    Balanced env here (deliverActs env here id serial es s) s := by
  induction es generalizing s with
  | nil => rfl
  | cons e es ih =>
    simp only [Cycle.deliverActs]
    split
    · have passed : Balanced env here [Act.dispatch (H := H) (L := L) id e] s := rfl
      exact (passed.append (callActs id e _ s)).append (ih _)
    · rfl

theorem settleActs (id : FileId) (x : Watch H) (v : Visit σ) :
    Balanced env here (settleActs env here id x v) v.after := by
  rw [Cycle.settleActs]
  split
  · rfl
  · refine (append ?_ (deliverActs _ _ _ _)).append rfl
    apply of_silent
    intro a ha
    obtain ⟨f, _, rfl⟩ := List.mem_map.1 ha
    exact ⟨rfl, rfl⟩

variable (env here) in
theorem pollActs (id : FileId) (s : σ) : Balanced env here (pollActs env here id s) s := by
  rw [Cycle.pollActs]
  split
  · rfl
  · next x _ =>
    refine append ?_ ?_
    · apply of_silent
      obtain ⟨slow, capture, slow_reports⟩ := captureActs_eq env here id x s
      rw [capture]
      intro a ha
      rcases List.mem_cons.1 ha with rfl | ha
      · exact ⟨rfl, rfl⟩
      · have told := slow_reports a ha
        cases a with
        | report d => cases d <;> first | exact ⟨rfl, rfl⟩ | cases told
        | _ => cases told
    · rw [replay_captureActs]
      exact settleActs id x _

variable (env here) in
theorem roundActs (ids : List FileId) (s : σ) : Balanced env here (roundActs env here ids s) s := by
  have each : Balanced env here (pollEachActs env here ids s) s := by
    induction ids generalizing s with
    | nil => rfl
    | cons id ids ih =>
      simp only [pollEachActs]
      split
      · rfl
      · exact (pollActs env here id s).append (ih _)
  exact each.append rfl

end Balanced

variable (here) in
def Untouched (i : Nat) (s t : σ) : Prop :=
  (here.get t).diagnostics.capacity = (here.get s).diagnostics.capacity ∧
    (here.get t).diagnostics.receivers[i]? = (here.get s).diagnostics.receivers[i]?

theorem Untouched.of_update {i : Nat} {f : Watcher H L → Watcher H L}
    (h : ∀ w, (f w).diagnostics = w.diagnostics) (s : σ) :
    Untouched here i s (here.update f s) := by
  rw [Untouched, here.get_update, h]
  exact ⟨rfl, rfl⟩

theorem untouched_apply {i : Nat} (untouched : env.Within (Untouched here i)) {a : Act H L}
    (silent : a.report? = none) (s : σ) : Untouched here i s (a.apply env here s) := by
  cases a with
  | report => cases silent
  | capture => exact Capture.visit_within untouched.questions _ _ _ _ s
  | dispatch => exact untouched.refl s
  | call => exact untouched.call _ _ s
  | store id serial snapshot =>
    exact .of_update (fun w => by rw [w.store_eq]) s
  | finish => exact .of_update (f := fun w => { w with cycles := w.cycles + 1 }) (fun _ => rfl) s

theorem receiver_replay {i : Nat} (untouched : env.Within (Untouched here i))
    (acts : List (Act H L)) {s : σ} {r : Receiver}
    (there : (here.get s).diagnostics.receivers[i]? = some r) (attended : r.attended = true)
    (room : r.queue.length + (emitted acts).length ≤ (here.get s).diagnostics.capacity) :
    (here.get (replay env here acts s)).diagnostics.receivers[i]? =
      some { r with queue := r.queue ++ emitted acts } := by
  induction acts generalizing s r with
  | nil => simpa [replay, emitted] using there
  | cons a acts ih =>
    cases told : a.report? with
    | none =>
      have same := untouched_apply untouched told s
      have rest : emitted (a :: acts) = emitted acts := List.filterMap_cons_none told
      rw [rest] at room ⊢
      exact ih (same.2.trans there) attended (by rw [same.1]; exact room)
    | some d =>
      have rest : emitted (a :: acts) = d :: emitted acts := List.filterMap_cons_some told
      have report : a = .report d := by
        cases a <;> cases told
        rfl
      subst report
      rw [rest, List.length_cons] at room
      have offered := r.offer_of_room attended
        (by omega : r.queue.length < (here.get s).diagnostics.capacity) d
      have next : (here.get ((Act.report d : Act H L).apply env here s)).diagnostics =
          (here.get s).diagnostics.emit d := by
        rw [Act.apply, Cycle.emit, here.get_update]
        rfl
      have held : (here.get ((Act.report d : Act H L).apply env here s)).diagnostics.receivers[i]? =
          some { r with queue := r.queue ++ [d] } := by
        rw [next, Diagnostics.emit, List.getElem?_map, there, Option.map_some, offered]
      have later := ih held attended (by rw [next]; simp [Diagnostics.emit]; omega)
      rw [rest]
      simpa [Cycle.replay] using later

variable (env here) in
structure CountsCalls (n : σ → Nat) : Prop where
  set : ∀ w s, n (here.set w s) = n s
  asked : env.toQueries.Within fun s t => n t = n s
  called : ∀ l e s, n (env.call l e s).2 = n s + 1

theorem CountsCalls.replay {n : σ → Nat} (h : CountsCalls env here n) (acts : List (Act H L))
    (s : σ) : n (replay env here acts s) = n s + acts.countP Act.isCall := by
  induction acts generalizing s with
  | nil => rfl
  | cons a acts ih =>
    have first : n (a.apply env here s) = n s + a.isCall.toNat := by
      cases a with
      | capture => exact Capture.visit_within h.asked _ _ _ _ s
      | dispatch => rfl
      | call _ b e => exact h.called b.listener e s
      | _ => exact h.set _ s
    have rest := ih (a.apply env here s)
    rw [List.countP_cons]
    cases call : a.isCall <;> rw [call] at first <;> simp [Cycle.replay] at * <;> omega

variable (env here) in
/-- The counts of a round agree with its polls, with what was reported, passed on and called, with
what a receiver finds that is left alone, and with a count that the listeners keep. -/
theorem counts_account_for_round (ids : List FileId) (s : σ) :
    let acts := roundActs env here ids s
    let round := runInOrder env here ids s
    let ps := polls env here ids s
    (replay env here acts s = round.2 ∧ acts = ps.flatMap (Poll.acts env here) ++ [.finish]) ∧
    (∀ front p back, ps = front ++ p :: back →
      p.start = replay env here (front.flatMap (Poll.acts env here)) s ∧
      (here.get p.start).watch? p.id = some p.watch ∧
      ∃ slow delivering, p.Course env here slow delivering) ∧
    (round.1.captureFailures = (emitted acts).countP Diagnostic.tellsCapture ∧
      (emitted acts).filter Diagnostic.tellsCapture = ps.flatMap (Poll.told env)) ∧
    (round.1.listenerFailures = (emitted acts).countP Diagnostic.tellsListener ∧
      round.1.listenerFailures = (outcomes env here acts s).countP (fun c => c.2 ≠ .accepted) ∧
      round.1.delivered = (outcomes env here acts s).countP (fun c => c.2 = .accepted)) ∧
    round.1.events = (dispatched acts).length ∧
    (round.1.polled = ps.countP (fun p => (p.visit env).result.isOk) ∧
      round.1.polled + ps.countP (fun p => !(p.visit env).result.isOk) = ps.length ∧
      polledIds acts = ps.map Poll.id) ∧
    (∀ i, env.Within (Untouched here i) → ∀ r, (here.get s).diagnostics.receivers[i]? = some r →
      r.attended = true →
      r.queue.length + (emitted acts).length ≤ (here.get s).diagnostics.capacity →
      (here.get round.2).diagnostics.receivers[i]? =
        some { r with queue := r.queue ++ emitted acts }) ∧
    ∀ n, CountsCalls env here n →
      n round.2 = n s + (round.1.delivered + round.1.listenerFailures) := by
  intro acts round ps
  have counted : Counted acts {} round.1 := counted_roundActs env here ids s
  have replayed : replay env here acts s = round.2 := replay_roundActs env here ids s
  have calls : round.1.delivered + round.1.listenerFailures = acts.countP Act.isCall :=
    counted.calls.trans (Nat.zero_add _)
  have told : round.1.listenerFailures = acts.countP Act.tellsListener :=
    counted.listenerFailures.trans (Nat.zero_add _)
  have refused : round.1.listenerFailures =
      (outcomes env here acts s).countP (fun c => c.2 ≠ .accepted) :=
    told.trans (Balanced.roundActs env here ids s).symm
  have ended := length_outcomes env here acts s
  have polled : round.1.polled = ps.countP fun p => (p.visit env).result.isOk := by
    rw [counted.polled, ← countP_results, results_roundActs, List.countP_map]
    exact Nat.zero_add _
  refine ⟨⟨replayed, ?_⟩, ?_, ⟨?_, ?_⟩, ⟨?_, refused, ?_⟩, ?_, ⟨polled, ?_, ?_⟩, ?_, ?_⟩
  · exact congrArg (· ++ [.finish]) (pollEachActs_eq_polls env here ids s)
  · intro front p back split
    obtain ⟨start, watched⟩ := polls_split split
    exact ⟨start, watched, p.course env here watched⟩
  · rw [countP_tellsCapture, counted.captureFailures]
    exact Nat.zero_add _
  · exact captureReports_roundActs env here ids s
  · rw [countP_tellsListener, told]
  · have split := List.length_eq_countP_add_countP (fun c : Binding L × Outcome => c.2 = .accepted)
      (l := outcomes env here acts s)
    simp only [decide_not, ne_eq, Bool.not_eq_true, decide_eq_false_iff_not] at refused split
    omega
  · rw [length_dispatched, counted.events]
    exact Nat.zero_add _
  · have split := List.length_eq_countP_add_countP (fun p : Poll H σ => (p.visit env).result.isOk)
      (l := ps)
    simp only [polled, Bool.not_eq_true] at split ⊢
    simp [split]
  · exact polledIds_eq_polls env here ids s
  · intro i untouched r there attended room
    rw [← replayed]
    exact receiver_replay untouched acts there attended room
  · intro n counts
    rw [← replayed, counts.replay, calls]

/-- Neither "a" nor the child "c" of "b" can be read. Every call is counted, and puts another watch
in the place of the one of "b". -/
def ailing : Surroundings FileId Outcome (Nat × Watcher FileId Outcome) where
  id file := file
  name file := file.text
  isPresent file s :=
    (if file.text = "b" ∨ file.text = "d" then .ok true else .error (.unavailable "cold"), s)
  modified _ s := (.ok ⟨0⟩, s)
  isFolder file s := (.ok (file.text == "b"), s)
  size _ s := (.ok 0, s)
  children _ s := (.ok [⟨"c"⟩, ⟨"d"⟩], s)
  call outcome _ s := (outcome, (s.1 + 1, (s.2.insert ⟨"b"⟩ ⟨"b"⟩ true none).2))
  clock _ := ⟨0⟩
  depth _ := 2

def ailingStart : Nat × Watcher FileId Outcome :=
  let w := ((Watcher.new ⟨0⟩ 0 ⟨1⟩ 8).insert ⟨"a"⟩ ⟨"a"⟩ true none).2
  let w := (w.insert ⟨"b"⟩ ⟨"b"⟩ true (some (.missing ⟨"b"⟩))).2
  let w := [.failed ["busy"], .panicked none, .accepted].foldl (fun w o => (w.bind ⟨"b"⟩ o).2) w
  (0, (w.onDiagnostics Diagnostics.subscribe).2)

theorem within_ailing : ailing.Within (Untouched .second 0) where
  refl _ := ⟨rfl, rfl⟩
  trans h h' := ⟨h'.1.trans h.1, h'.2.trans h.2⟩
  isPresent _ _ := ⟨rfl, rfl⟩
  modified _ _ := ⟨rfl, rfl⟩
  isFolder _ _ := ⟨rfl, rfl⟩
  size _ _ := ⟨rfl, rfl⟩
  children _ _ := ⟨rfl, rfl⟩
  call _ _ _ := ⟨rfl, rfl⟩

theorem countsCalls_ailing : CountsCalls ailing .second Prod.fst where
  set _ _ := rfl
  asked := {
    refl := fun _ => rfl
    trans := fun h h' => h'.trans h
    isPresent := fun _ _ => rfl
    modified := fun _ _ => rfl
    isFolder := fun _ _ => rfl
    size := fun _ _ => rfl
    children := fun _ _ => rfl }
  called _ _ _ := rfl

theorem replaced_watch_accounted_for :
    let round := runInOrder ailing .second [⟨"a"⟩, ⟨"b"⟩] ailingStart
    let cold := "Unavailable: cold"
    round.1 = ⟨1, 1, 1, 2, 2⟩ ∧ round.2.1 = 3 ∧
      round.2.2.diagnostics.receivers[0]? = some { queue :=
        [.captureFailed ⟨"a"⟩ cold, .captureFailed ⟨"c"⟩ cold,
          .listenerFailed ⟨"b"⟩ 1 (.created ⟨"b"⟩) "busy",
          .listenerPanicked ⟨"b"⟩ 2 (.created ⟨"b"⟩) "<non-string panic payload>"] } := by
  intro round cold
  obtain ⟨_, _, ⟨captures, _⟩, ⟨listeners, _, delivered⟩, events, ⟨polled, _⟩, received, called⟩ :=
    counts_account_for_round ailing .second [⟨"a"⟩, ⟨"b"⟩] ailingStart
  refine ⟨?_, ?_, ?_⟩
  · have counts : round.1 = ⟨round.1.polled, round.1.events, round.1.delivered,
        round.1.listenerFailures, round.1.captureFailures⟩ := rfl
    rw [counts, polled, events, delivered, listeners, captures]
    rfl
  · rw [called Prod.fst countsCalls_ailing, delivered, listeners]
    rfl
  · exact received 0 within_ailing {} rfl rfl (by decide)

end Cycle

end PathWatch
