import PathWatch.Proofs.Capture.Steady
import PathWatch.Proofs.Cycle.Tally

/-! The watched paths may come in any order: as long as nothing changes under a round, and
listeners keep to themselves, every path has the same part in it at whichever turn. -/
namespace PathWatch.Cycle

variable {H L σ : Type}

/-- In the states in `S` the answers are the same and a listener ends an event the same way.
Neither answers nor calls lead out of `S` or touch the watcher. -/
structure Calm (env : Surroundings H L σ) (here : Focus σ (Watcher H L)) (S : σ → Prop) :
    Prop where
  steady : env.toQueries.Steady S
  asked : env.toQueries.Within fun s t => here.get t = here.get s
  called : ∀ l e s, here.get (env.call l e s).2 = here.get s
  stays : ∀ l e s, S s → S (env.call l e s).2
  ends : ∀ l e s t, S s → S t → (env.call l e s).1 = (env.call l e t).1
  depth : ∀ s t, S s → S t → env.depth s = env.depth t
  set : ∀ w s, S s → S (here.set w s)

structure Visits (here : Focus σ (Watcher H L)) (order : List FileId) (s : σ) : Prop where
  nodup : order.Nodup
  all : ∀ j, j ∈ order ↔ (here.get s).isWatching j = true

variable {env : Surroundings H L σ} {here : Focus σ (Watcher H L)} {S : σ → Prop}
  {id : FileId} {s t : σ}

theorem Visits.perm {order order' : List FileId} (h : Visits here order s)
    (h' : Visits here order' s) : order.Perm order' :=
  (List.perm_ext_iff_of_nodup h.nodup h'.nodup).2 fun j => (h.all j).trans (h'.all j).symm

variable (here S id) in
structure Alike (s t : σ) : Prop where
  left : S s
  right : S t
  same : Same here id s t

theorem Alike.onward {s' t' : σ} (alike : Alike here S id s t) (hs : S s') (ht : S t')
    (same : Same here id s s') (same' : Same here id t t') : Alike here S id s' t' :=
  ⟨hs, ht, Eq.trans same' (Eq.trans alike.same (Eq.symm same))⟩

namespace Calm

variable (calm : Calm env here S)
include calm

theorem aloof (id : FileId) : Aloof env here id := .of_alone calm.asked calm.called

theorem apply_mem (a : Act H L) (h : S s) : S (a.apply env here s) := by
  cases a with
  | capture _ watch _ => exact Capture.visit_within calm.steady.within _ _ _ _ s h
  | report => exact calm.set _ s h
  | dispatch => exact h
  | call _ b e => exact calm.stays b.listener e s h
  | store => exact calm.set _ s h
  | finish => exact calm.set _ s h

theorem replay_mem (acts : List (Act H L)) (h : S s) : S (replay env here acts s) :=
  replay_induction h fun a _ _ => calm.apply_mem a

theorem alike_replay (alike : Alike here S id s t) {acts : List (Act H L)}
    (h : ∀ a ∈ acts, a.IsDelivery id) :
    Alike here S id (replay env here acts s) (replay env here acts t) :=
  alike.onward (calm.replay_mem acts alike.left) (calm.replay_mem acts alike.right)
    ((calm.aloof id).same_delivery h s) ((calm.aloof id).same_delivery h t)

theorem bare_visitOf (hs : S s) (ht : S t) (watch : Watch H) :
    (visitOf env watch s).bare = (visitOf env watch t).bare := by
  rw [visitOf, visitOf, calm.depth s t hs ht, Capture.bare_visit calm.steady hs _ _ _ _ hs,
    Capture.bare_visit calm.steady hs _ _ _ _ ht]

theorem result_eq (hs : S s) (ht : S t) (watch : Watch H) :
    (visitOf env watch s).result = (visitOf env watch t).result :=
  (Visit.mk.inj (calm.bare_visitOf hs ht watch)).1

theorem callAct_eq (alike : Alike here S id s t) (event : ChangeEvent) (b : Binding L) :
    callAct env id event b s = callAct env id event b t := by
  rw [callAct, callAct, calm.ends b.listener event s t alike.left alike.right]

theorem callActs_eq (alike : Alike here S id s t) (event : ChangeEvent) (bs : List (Binding L)) :
    callActs env here id event bs s = callActs env here id event bs t := by
  induction bs generalizing s t with
  | nil => rfl
  | cons b bs ih =>
    have held : (here.get s).bindings.holds id b.number =
        (here.get t).bindings.holds id b.number := by
      rw [Bindings.holds, Bindings.holds, alike.same.bindings]
    -- the same call leads to two different states, but these are alike again
    have called : ∀ a ∈ callAct env id event b t, a.IsDelivery id :=
      fun a ha => (isCall_of_mem_callAct env ha).isDelivery
    have later := ih (calm.alike_replay alike called)
    simp only [callActs, held, calm.callAct_eq alike event b, ih alike, later]

theorem deliverActs_eq (alike : Alike here S id s t) (serial : Nat) (es : List ChangeEvent) :
    deliverActs env here id serial es s = deliverActs env here id serial es t := by
  induction es generalizing s t with
  | nil => rfl
  | cons e es ih =>
    have current : (here.get s).isCurrent id serial = (here.get t).isCurrent id serial := by
      rw [Watcher.isCurrent, Watcher.isCurrent, alike.same.watch?]
    have dispatched : dispatchActs env here id e s = dispatchActs env here id e t := by
      rw [dispatchActs, dispatchActs, alike.same.bindings, calm.callActs_eq alike]
    have delivery : ∀ a ∈ dispatchActs env here id e t, a.IsDelivery id :=
      fun a => isDelivery_of_mem_dispatchActs env here
    have later := ih (calm.alike_replay alike delivery)
    simp only [deliverActs, current, dispatched, later]

theorem settleActs_eq (watch : Watch H) {v w : Visit σ} (alike : Alike here S id v.after w.after)
    (bare : v.bare = w.bare) :
    settleActs env here id watch v = settleActs env here id watch w := by
  obtain ⟨result, failures, s⟩ := v
  obtain ⟨result', failures', t⟩ := w
  cases bare
  cases result with
  | error e => rfl
  | ok snapshot =>
    have reports : ∀ a ∈ failureActs (H := H) (L := L) failures, a.IsDelivery id :=
      fun a => isDelivery_of_mem_failureActs
    simp only [settleActs]
    rw [calm.deliverActs_eq (calm.alike_replay alike reports)]

theorem alike_captured (alike : Alike here S id s t) (watch : Watch H) :
    Alike here S id (captureWatch env here id watch s).after
      (captureWatch env here id watch t).after := by
  have stays {u : σ} (hu : S u) : S (captureWatch env here id watch u).after :=
    replay_captureActs env here id watch u ▸ calm.replay_mem _ hu
  exact alike.onward (stays alike.left) (stays alike.right)
    ((calm.aloof id).same_captureActs watch s) ((calm.aloof id).same_captureActs watch t)

end Calm

theorem untimed_captureActs (watch : Watch H) (s : σ) :
    untimed (captureActs env here id watch s) =
      [.capture id watch (visitOf env watch s).result] := by
  rw [captureActs]
  dsimp only
  split <;> rfl

variable (here id) in
theorem bare_captureWatch (watch : Watch H) (s : σ) :
    (captureWatch env here id watch s).bare = (visitOf env watch s).bare := by
  rw [captureWatch_eq]
  dsimp only
  split <;> rfl

namespace Calm

variable (calm : Calm env here S)
include calm

theorem untimed_pollActs (alike : Alike here S id s t) :
    untimed (pollActs env here id s) = untimed (pollActs env here id t) := by
  rw [pollActs, pollActs, alike.same.watch?]
  cases (here.get s).watch? id with
  | none => rfl
  | some watch =>
    have result := calm.result_eq alike.left alike.right watch
    have bare := calm.bare_visitOf alike.left alike.right watch
    rw [← bare_captureWatch here id, ← bare_captureWatch here id] at bare
    have settled := calm.settleActs_eq watch (calm.alike_captured alike watch) bare
    simp only [untimed_append, untimed_captureActs, result, settled]

theorem untimed_pollEachActs {ids : List FileId} (nodup : ids.Nodup)
    (alike : ∀ id ∈ ids, Alike here S id s t) (opened : (here.get s).closed = false) :
    untimed (pollEachActs env here ids t) =
      ids.flatMap fun id => untimed (pollActs env here id s) := by
  induction ids generalizing t with
  | nil => rfl
  | cons id ids ih =>
    obtain ⟨new, nodup⟩ := List.nodup_cons.1 nodup
    have own := alike id List.mem_cons_self
    -- the paths to come are still as they were in `s`, since a poll leaves other paths alone
    have later : ∀ j ∈ ids, Alike here S j s (replay env here (pollActs env here id t) t) := by
      intro j hj
      have now := alike j (List.mem_cons_of_mem id hj)
      have other : id ≠ j := fun e => new (e ▸ hj)
      exact now.onward now.left (calm.replay_mem _ now.right) (.refl s)
        ((calm.aloof j).same_elsewhere other t)
    have nowOpen := own.same.closed.trans opened
    rw [pollEachActs_of_open nowOpen, untimed_append, ih nodup later, List.flatMap_cons,
      calm.untimed_pollActs own]

theorem perm_roundActs {order order' : List FileId} (h : Visits here order s)
    (h' : Visits here order' s) (start : S s) (opened : (here.get s).closed = false) :
    (untimed (roundActs env here order s)).Perm (untimed (roundActs env here order' s)) := by
  have alike (ids : List FileId) : ∀ id ∈ ids, Alike here S id s s :=
    fun id _ => ⟨start, start, .refl s⟩
  rw [roundActs, roundActs, untimed_append, untimed_append,
    calm.untimed_pollEachActs h.nodup (alike order) opened,
    calm.untimed_pollEachActs h'.nodup (alike order') opened]
  exact ((h.perm h').flatMap_right _).append_right _

end Calm

theorem round_elsewhere (aloof : Aloof env here id) {order : List FileId} (out : id ∉ order)
    (s : σ) : callsAt id (roundActs env here order s) = [] ∧
      Same here id s (replay env here (roundActs env here order s) s) := by
  obtain ⟨_, calls, same⟩ := aloof.pollEach_elsewhere out s
  rw [roundActs, callsAt_append, calls, replay_append]
  exact ⟨rfl, same.trans (aloof.same_apply (a := .finish) (by intro _ _ h; cases h) _)⟩

def reports (acts : List (Act H L)) : List Diagnostic := (untimed acts).filterMap Act.report?

variable (env here) in
structure SameRound (order order' : List FileId) (s : σ) : Prop where
  counts : (runInOrder env here order s).1 = (runInOrder env here order' s).1
  calls : ∀ id, callsAt id (roundActs env here order s) = callsAt id (roundActs env here order' s)
  reports : (reports (roundActs env here order s)).Perm (reports (roundActs env here order' s))
  watches : ∀ id, (here.get (runInOrder env here order s).2).watch? id =
    (here.get (runInOrder env here order' s).2).watch? id

namespace Calm

variable (calm : Calm env here S)
include calm

theorem round_eq {order order' : List FileId} (h : Visits here order s) (h' : Visits here order' s)
    (start : S s) (opened : (here.get s).closed = false) (id : FileId) :
    callsAt id (roundActs env here order s) = callsAt id (roundActs env here order' s) ∧
      Same here id (runInOrder env here order s).2 (runInOrder env here order' s).2 := by
  have aloof := calm.aloof id
  rw [← replay_roundActs, ← replay_roundActs]
  cases hx : (here.get s).watch? id with
  | none =>
    have out {ids : List FileId} (h : Visits here ids s) : id ∉ ids := by
      rw [h.all, Watcher.isWatching, hx]
      exact Bool.false_ne_true
    obtain ⟨calls, same⟩ := round_elsewhere aloof (out h) s
    obtain ⟨calls', same'⟩ := round_elsewhere aloof (out h') s
    exact ⟨calls.trans calls'.symm, Eq.trans same' (Eq.symm same)⟩
  | some x =>
    have mem {ids : List FileId} (h : Visits here ids s) : id ∈ ids := by
      rw [h.all, Watcher.isWatching, hx]
      rfl
    obtain ⟨_, polled⟩ := aloof.round h.nodup (mem h) hx opened
    obtain ⟨_, polled'⟩ := aloof.round h'.nodup (mem h') hx opened
    have turns : (visitOf env x (turn env here id order s)).result =
        (visitOf env x (turn env here id order' s)).result :=
      calm.result_eq (calm.replay_mem _ start) (calm.replay_mem _ start) x
    rw [← turns] at polled'
    exact ⟨polled.calls.trans polled'.calls.symm, polled'.own.trans polled.own.symm⟩

end Calm

/-- In which order the watched paths come makes no difference. -/
theorem order_irrelevant (calm : Calm env here S) (start : S s)
    (opened : (here.get s).closed = false) {order order' : List FileId}
    (h : Visits here order s) (h' : Visits here order' s) :
    SameRound env here order order' s ∧
      ∀ ids, replay env here (roundActs env here ids s) s = (runInOrder env here ids s).2 := by
  have perm := calm.perm_roundActs h h' start opened
  refine ⟨⟨?_, ?_, perm.filterMap _, ?_⟩, fun ids => replay_roundActs env here ids s⟩
  · have counted := (counted_roundActs env here order s).untimed.perm perm
    exact counted.unique (counted_roundActs env here order' s).untimed
  · intro id
    exact (calm.round_eq h h' start opened id).1
  · intro id
    exact (calm.round_eq h h' start opened id).2.watch?.symm

def mixed : Surroundings FileId Outcome (Watcher FileId Outcome) where
  id file := file
  name file := file.text
  isPresent file w := (if file = ⟨"b"⟩ then .error (.unavailable "away") else .ok true, w)
  modified _ w := (.ok (.ofMillis 0), w)
  isFolder _ w := (.ok false, w)
  size _ w := (.ok 2, w)
  children _ w := (.ok [], w)
  call outcome _ w := (outcome, w)
  clock _ := ⟨0⟩
  depth _ := 1

def mixedStart : Watcher FileId Outcome :=
  let known : Snapshot := .file ⟨"a"⟩ (.ofMillis 0) 1
  let w := ((Watcher.new ⟨0⟩ 0 ⟨1⟩ 1).insert ⟨"a"⟩ ⟨"a"⟩ true (some known)).2
  let w := (w.insert ⟨"b"⟩ ⟨"b"⟩ true none).2
  ((w.bind ⟨"a"⟩ (.failed ["busy"])).2.bind ⟨"a"⟩ .accepted).2

theorem calm_mixed : Calm mixed .whole fun _ => True where
  steady.within := {
    refl := fun _ => id
    trans := fun h h' => h' ∘ h
    isPresent := fun _ _ => id
    modified := fun _ _ => id
    isFolder := fun _ _ => id
    size := fun _ _ => id
    children := fun _ _ => id }
  steady.same := fun _ _ _ _ => rfl
  asked := {
    refl := fun _ => rfl
    trans := fun h h' => h'.trans h
    isPresent := fun _ _ => rfl
    modified := fun _ _ => rfl
    isFolder := fun _ _ => rfl
    size := fun _ _ => rfl
    children := fun _ _ => rfl }
  called _ _ _ := rfl
  stays _ _ _ _ := trivial
  ends _ _ _ _ _ _ := rfl
  depth _ _ _ _ := rfl
  set _ _ _ := trivial

theorem failing_path_first_or_last :
    (runInOrder mixed .whole [⟨"b"⟩, ⟨"a"⟩] mixedStart).1 = ⟨1, 1, 1, 1, 1⟩ ∧
      callsAt ⟨"a"⟩ (roundActs mixed .whole [⟨"b"⟩, ⟨"a"⟩] mixedStart) =
        [(⟨1, .failed ["busy"]⟩, .changed ⟨"a"⟩), (⟨2, .accepted⟩, .changed ⟨"a"⟩)] ∧
      (runInOrder mixed .whole [⟨"b"⟩, ⟨"a"⟩] mixedStart).2.watch? ⟨"a"⟩ =
        some ⟨⟨"a"⟩, true, some (.file ⟨"a"⟩ (.ofMillis 0) 2), 1⟩ := by
  have watched (j : FileId) : mixedStart.isWatching j = true ↔ j ∈ [⟨"a"⟩, ⟨"b"⟩] :=
    Watcher.mem_keys_iff_isWatching.symm
  have last : Visits .whole [⟨"a"⟩, ⟨"b"⟩] mixedStart :=
    ⟨by decide, fun j => (watched j).symm⟩
  have first : Visits .whole [⟨"b"⟩, ⟨"a"⟩] mixedStart :=
    ⟨by decide, fun j => (List.Perm.swap _ _ []).mem_iff.trans (watched j).symm⟩
  obtain ⟨same, _⟩ := order_irrelevant calm_mixed trivial rfl first last
  rw [same.counts, same.calls]
  exact ⟨rfl, rfl, same.watches ⟨"a"⟩⟩

end PathWatch.Cycle
