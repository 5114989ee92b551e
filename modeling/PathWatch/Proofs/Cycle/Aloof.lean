import PathWatch.Proofs.Capture.Frame
import PathWatch.Proofs.Cycle.Acts
import PathWatch.Proofs.Watcher

/-! What a round does for a path when neither handles nor listeners touch what
the watcher holds for it: it is captured once, its listeners are told what has
changed, and its watch takes the new snapshot. -/
namespace PathWatch.Cycle

variable {H L σ : Type} (env : Surroundings H L σ) (here : Focus σ (Watcher H L))

def own (id : FileId) (w : Watcher H L) : Option (Watch H) × List (Binding L) × Bool :=
  (w.watch? id, w.bindings.of id, w.closed)

def Same (id : FileId) (s t : σ) : Prop := own id (here.get t) = own id (here.get s)

/-- Neither an answer nor a call touches what the watcher holds for the path. -/
structure Aloof (id : FileId) : Prop where
  isPresent : ∀ h s, Same here id s (env.isPresent h s).2
  modified : ∀ h s, Same here id s (env.modified h s).2
  isFolder : ∀ h s, Same here id s (env.isFolder h s).2
  size : ∀ h s, Same here id s (env.size h s).2
  children : ∀ h s, Same here id s (env.children h s).2
  call : ∀ l e s, Same here id s (env.call l e s).2

variable {env here} {id : FileId}

theorem Same.refl (s : σ) : Same here id s s := rfl

theorem Same.trans {s t u : σ} (h : Same here id s t) (h' : Same here id t u) : Same here id s u :=
  Eq.trans h' h

theorem Same.watch? {s t : σ} (h : Same here id s t) :
    (here.get t).watch? id = (here.get s).watch? id :=
  congrArg Prod.fst h

theorem Same.bindings {s t : σ} (h : Same here id s t) :
    (here.get t).bindings.of id = (here.get s).bindings.of id :=
  congrArg (·.2.1) h

theorem Same.closed {s t : σ} (h : Same here id s t) : (here.get t).closed = (here.get s).closed :=
  congrArg (·.2.2) h

theorem Same.of_update {f : Watcher H L → Watcher H L} (hf : ∀ w, own id (f w) = own id w) (s : σ) :
    Same here id s (here.update f s) := by
  rw [Same, here.get_update]
  exact hf _

theorem Aloof.within (ha : Aloof env here id) : env.toQueries.Within (Same here id) where
  refl := .refl
  trans := .trans
  isPresent := ha.isPresent
  modified := ha.modified
  isFolder := ha.isFolder
  size := ha.size
  children := ha.children

theorem Aloof.of_alone (hq : env.toQueries.Within fun s t => here.get t = here.get s)
    (hcall : ∀ l e s, here.get (env.call l e s).2 = here.get s) : Aloof env here id where
  isPresent h s := congrArg (own id) (hq.isPresent h s)
  modified h s := congrArg (own id) (hq.modified h s)
  isFolder h s := congrArg (own id) (hq.isFolder h s)
  size h s := congrArg (own id) (hq.size h s)
  children h s := congrArg (own id) (hq.children h s)
  call l e s := congrArg (own id) (hcall l e s)

theorem own_store_ne {j : FileId} (hj : j ≠ id) (serial : Nat) (snapshot : Snapshot)
    (w : Watcher H L) : own id (w.store j serial snapshot) = own id w := by
  obtain ⟨hb, hc, _⟩ := w.store_frame j serial snapshot
  rw [own, own, Watcher.watch?_store, if_neg hj.symm, hb, hc]

theorem Aloof.same_apply (ha : Aloof env here id) {a : Act H L}
    (h : ∀ serial snapshot, a ≠ .store id serial snapshot) (s : σ) :
    Same here id s (a.apply env here s) := by
  cases a with
  | capture => exact Capture.visit_within ha.within _ _ _ _ _
  | report d => exact .of_update (f := (·.emit d)) (fun _ => rfl) s
  | dispatch => exact .refl s
  | call _ b e => exact ha.call _ _ _
  | store j serial snapshot =>
    refine .of_update (own_store_ne ?_ serial snapshot) s
    intro e
    subst e
    exact h serial snapshot rfl
  | finish => exact .of_update (f := fun w => { w with cycles := w.cycles + 1 }) (fun _ => rfl) s

theorem Aloof.same_replay (ha : Aloof env here id) {acts : List (Act H L)}
    (h : ∀ a ∈ acts, ∀ serial snapshot, a ≠ .store id serial snapshot) (s : σ) :
    Same here id s (replay env here acts s) := by
  induction acts generalizing s with
  | nil => exact .refl s
  | cons a acts ih =>
    refine (ha.same_apply (h a List.mem_cons_self) s).trans (ih ?_ _)
    intro b hb
    exact h b (List.mem_cons_of_mem _ hb)

theorem Act.IsDelivery.ne_store {j : FileId} {a : Act H L} (h : a.IsDelivery j) (serial : Nat)
    (snapshot : Snapshot) : a ≠ .store id serial snapshot := by
  intro e
  subst e
  exact h

theorem Aloof.same_delivery (ha : Aloof env here id) {j : FileId} {acts : List (Act H L)}
    (h : ∀ a ∈ acts, a.IsDelivery j) (s : σ) : Same here id s (replay env here acts s) :=
  ha.same_replay (fun a hm => (h a hm).ne_store) s

theorem Aloof.same_elsewhere (ha : Aloof env here id) {j : FileId} (hj : j ≠ id) (s : σ) :
    Same here id s (replay env here (pollActs env here j s) s) := by
  refine ha.same_replay ?_ s
  intro a hm serial snapshot e
  subst e
  cases hw : (here.get s).watch? j with
  | none => simp [pollActs, hw] at hm
  | some watch =>
    obtain ⟨rfl, _⟩ := isPoll_of_mem_pollActs env here hw hm
    exact hj rfl

theorem callsAt_callAct (event : ChangeEvent) (b : Binding L) (s : σ) :
    callsAt id (callAct env id event b s) = [(b, event)] := by
  rw [callAct, callsAt]
  cases (env.call b.listener event s).1.diagnostic? id b.number event <;> simp

theorem Aloof.callsAt_callActs (ha : Aloof env here id) (event : ChangeEvent)
    {bs : List (Binding L)} {s : σ} (hb : ∀ b ∈ bs, b ∈ (here.get s).bindings.of id) :
    callsAt id (callActs env here id event bs s) = bs.map fun b => (b, event) := by
  induction bs generalizing s with
  | nil => rfl
  | cons b bs ih =>
    have held : (here.get s).bindings.holds id b.number = true :=
      List.any_eq_true.2 ⟨b, hb b List.mem_cons_self, beq_self_eq_true _⟩
    have same : Same here id s (replay env here (callAct env id event b s) s) :=
      ha.same_delivery (fun a hm => (isCall_of_mem_callAct env hm).isDelivery) s
    simp only [callActs, held, if_true, callsAt_append, callsAt_callAct]
    rw [ih]
    · rfl
    · intro c hc
      rw [same.bindings]
      exact hb c (List.mem_cons_of_mem _ hc)

theorem Aloof.callsAt_deliverActs (ha : Aloof env here id) {x : Watch H} (es : List ChangeEvent)
    {s : σ} (hx : (here.get s).watch? id = some x) :
    callsAt id (deliverActs env here id x.serial es s) =
      es.flatMap fun e => ((here.get s).bindings.of id).map fun b => (b, e) := by
  induction es generalizing s with
  | nil => rfl
  | cons e es ih =>
    have current : (here.get s).isCurrent id x.serial = true :=
      Watcher.isCurrent_iff.2 ⟨x, hx, rfl⟩
    have same : Same here id s (replay env here (dispatchActs env here id e s) s) :=
      ha.same_delivery (fun a => isDelivery_of_mem_dispatchActs env here) s
    have calls : callsAt id (dispatchActs env here id e s) =
        ((here.get s).bindings.of id).map fun b => (b, e) :=
      ha.callsAt_callActs e (fun _ hb => hb)
    simp only [deliverActs, current, if_true, callsAt_append, calls, List.flatMap_cons]
    rw [ih (same.watch?.trans hx), same.bindings]

def news (last : Option Snapshot) (result : Except FsError Snapshot) : List ChangeEvent :=
  match result with
  | .ok snapshot => changes last snapshot
  | .error _ => []

def polled (x : Watch H) (result : Except FsError Snapshot) : Watch H :=
  match result with
  | .ok snapshot => { x with last := some snapshot }
  | .error _ => x

theorem Aloof.same_captureActs (ha : Aloof env here id) (x : Watch H) (s : σ) :
    Same here id s (captureWatch env here id x s).after := by
  rw [← replay_captureActs]
  refine ha.same_replay ?_ s
  intro a hm serial snapshot e
  subst e
  rw [captureActs] at hm
  dsimp only at hm
  split at hm <;> simp at hm

variable (env here id) in
theorem capturesAt_captureActs (x : Watch H) (s : σ) :
    capturesAt id (captureActs env here id x s) = [(visitOf env x s).result] ∧
      callsAt id (captureActs env here id x s) = [] := by
  rw [captureActs]
  dsimp only
  split <;> simp [capturesAt, callsAt]

variable (env here id) in
structure Polled (x : Watch H) (result : Except FsError Snapshot) (s : σ)
    (acts : List (Act H L)) : Prop where
  calls : callsAt id acts = (news x.last result).flatMap fun e =>
    ((here.get s).bindings.of id).map fun b => (b, e)
  own : own id (here.get (replay env here acts s)) =
    (some (polled x result), (here.get s).bindings.of id, (here.get s).closed)

theorem own_store_self {w : Watcher H L} {x : Watch H} (hx : w.watch? id = some x)
    (snapshot : Snapshot) : own id (w.store id x.serial snapshot) =
      (some (polled x (.ok snapshot)), w.bindings.of id, w.closed) := by
  obtain ⟨hb, hc, _⟩ := w.store_frame id x.serial snapshot
  rw [own, Watcher.watch?_store, if_pos rfl, hx, hb, hc, Option.map_some, Watch.stored_self]
  rfl

theorem callsAt_failureActs (failures : List Failure) :
    callsAt (L := L) (H := H) id (failureActs failures) = [] := by
  refine List.filterMap_eq_nil_iff.2 fun a ha => ?_
  obtain ⟨f, _, rfl⟩ := List.mem_map.1 ha
  rfl

theorem Aloof.settle (ha : Aloof env here id) {x : Watch H} {v : Visit σ}
    (hx : (here.get v.after).watch? id = some x) :
    capturesAt id (settleActs env here id x v) = [] ∧
      Polled env here id x v.result v.after (settleActs env here id x v) := by
  obtain ⟨e | snapshot, failures, s⟩ := v
  · refine ⟨rfl, rfl, ?_⟩
    have same : Same here id s (emit here (.captureFailed id e.message) s) :=
      .of_update (f := (·.emit _)) (fun _ => rfl) s
    refine Eq.trans same ?_
    rw [Cycle.own, hx]
    rfl
  · have failing : ∀ a ∈ failureActs (H := H) (L := L) failures, a.IsDelivery id :=
      fun a => isDelivery_of_mem_failureActs
    have same₁ : Same here id s (replay env here (failureActs failures) s) :=
      ha.same_delivery failing s
    have hx₁ := same₁.watch?.trans hx
    have delivering : ∀ a ∈ deliverActs env here id x.serial (changes x.last snapshot)
        (replay env here (failureActs failures) s), a.IsDelivery id :=
      fun a => isDelivery_of_mem_deliverActs env here
    have same₂ := same₁.trans (ha.same_delivery delivering _)
    refine ⟨?_, ?_, ?_⟩
    · simp only [settleActs, capturesAt_append, capturesAt_of_isDelivery failing,
        capturesAt_of_isDelivery delivering]
      rfl
    · simp only [settleActs, callsAt_append, callsAt_failureActs,
        ha.callsAt_deliverActs (changes x.last snapshot) hx₁, same₁.bindings]
      exact List.append_nil _
    · simp only [settleActs, replay_append]
      refine Eq.trans (congrArg (Cycle.own id) (here.get_update _ _)) ?_
      rw [own_store_self (same₂.watch?.trans hx), same₂.bindings, same₂.closed]

theorem Aloof.poll (ha : Aloof env here id) {x : Watch H} {s : σ}
    (hx : (here.get s).watch? id = some x) :
    capturesAt id (pollActs env here id s) = [(visitOf env x s).result] ∧
      Polled env here id x (visitOf env x s).result s (pollActs env here id s) := by
  obtain ⟨hcap, hcalls⟩ := capturesAt_captureActs env here id x s
  have same := ha.same_captureActs x s
  obtain ⟨hs, hp⟩ := ha.settle (same.watch?.trans hx)
  rw [captureWatch_result] at hp
  refine ⟨?_, ?_, ?_⟩
  · simp only [pollActs, hx, capturesAt_append, hcap, hs, List.append_nil]
  · simp only [pollActs, hx, callsAt_append, hcalls, List.nil_append]
    rw [hp.calls, same.bindings]
  · simp only [pollActs, hx, replay_append, replay_captureActs]
    rw [hp.own, same.bindings, same.closed]

theorem Aloof.pollEach_elsewhere (ha : Aloof env here id) {ids : List FileId} (hn : id ∉ ids)
    (s : σ) : capturesAt id (pollEachActs env here ids s) = [] ∧
      callsAt id (pollEachActs env here ids s) = [] ∧
      Same here id s (replay env here (pollEachActs env here ids s) s) := by
  induction ids generalizing s with
  | nil => exact ⟨rfl, rfl, rfl⟩
  | cons j ids ih =>
    obtain ⟨hj, hn⟩ := List.ne_and_not_mem_of_not_mem_cons hn
    cases closed : (here.get s).closed with
    | true =>
      rw [pollEachActs_of_closed closed]
      exact ⟨rfl, rfl, rfl⟩
    | false =>
      obtain ⟨hcap, hcalls⟩ := pollActs_elsewhere env here hj.symm s
      obtain ⟨hcap', hcalls', same⟩ := ih hn (replay env here (pollActs env here j s) s)
      rw [pollEachActs_of_open closed, capturesAt_append, callsAt_append, replay_append, hcap,
        hcalls, hcap', hcalls']
      exact ⟨rfl, rfl, (ha.same_elsewhere hj.symm s).trans same⟩

variable (env here id) in
def turn (ids : List FileId) (s : σ) : σ :=
  replay env here (pollEachActs env here (ids.takeWhile (· ≠ id)) s) s

theorem Aloof.pollEach (ha : Aloof env here id) {ids : List FileId} (nodup : ids.Nodup)
    (mem : id ∈ ids) {x : Watch H} {s : σ} (hx : (here.get s).watch? id = some x)
    (hc : (here.get s).closed = false) :
    capturesAt id (pollEachActs env here ids s) =
        [(visitOf env x (turn env here id ids s)).result] ∧
      Polled env here id x (visitOf env x (turn env here id ids s)).result s
        (pollEachActs env here ids s) := by
  induction ids generalizing s with
  | nil => cases mem
  | cons j ids ih =>
    obtain ⟨hn, nodup⟩ := List.nodup_cons.1 nodup
    rw [pollEachActs_of_open hc]
    by_cases hj : j = id
    · subst hj
      have first : turn env here j (j :: ids) s = s := by simp [turn, pollEachActs, replay]
      obtain ⟨hcap, hp⟩ := ha.poll hx
      obtain ⟨hcap', hcalls', same⟩ :=
        ha.pollEach_elsewhere hn (replay env here (pollActs env here j s) s)
      rw [first, capturesAt_append, hcap, hcap']
      refine ⟨rfl, ?_, ?_⟩
      · rw [callsAt_append, hcalls', List.append_nil, hp.calls]
      · rw [replay_append]
        exact Eq.trans same hp.own
    · have same := ha.same_elsewhere hj s
      have later : turn env here id (j :: ids) s =
          turn env here id ids (replay env here (pollActs env here j s) s) := by
        simp [turn, hj, pollEachActs_of_open hc, replay_append]
      have mem' : id ∈ ids := (List.mem_cons.1 mem).resolve_left (Ne.symm hj)
      obtain ⟨hcap, hcalls⟩ := pollActs_elsewhere env here hj s
      obtain ⟨hcap', hp⟩ := ih nodup mem' (same.watch?.trans hx) (same.closed.trans hc)
      rw [later, capturesAt_append, hcap, hcap']
      refine ⟨rfl, ?_, ?_⟩
      · rw [callsAt_append, hcalls, List.nil_append, hp.calls, same.bindings]
      · rw [replay_append, hp.own, same.bindings, same.closed]

theorem Aloof.round (ha : Aloof env here id) {ids : List FileId} (nodup : ids.Nodup)
    (mem : id ∈ ids) {x : Watch H} {s : σ} (hx : (here.get s).watch? id = some x)
    (hc : (here.get s).closed = false) :
    capturesAt id (roundActs env here ids s) =
        [(visitOf env x (turn env here id ids s)).result] ∧
      Polled env here id x (visitOf env x (turn env here id ids s)).result s
        (roundActs env here ids s) := by
  obtain ⟨hcap, hp⟩ := ha.pollEach nodup mem hx hc
  refine ⟨?_, ?_, ?_⟩
  · rw [roundActs, capturesAt_append, hcap]
    rfl
  · rw [roundActs, callsAt_append, hp.calls]
    exact List.append_nil _
  · rw [roundActs, replay_append]
    have same : Same here id (replay env here (pollEachActs env here ids s) s)
        (replay env here [.finish] (replay env here (pollEachActs env here ids s) s)) :=
      ha.same_apply (a := .finish) (by intro _ _ h; cases h) _
    exact Eq.trans same hp.own

end PathWatch.Cycle
