import PathWatch.Proofs.Cycle.Trace
import PathWatch.Proofs.Watcher

/-! Which acts a round, a poll and a delivery are made of, and what is in place
when they happen. -/
namespace PathWatch.Cycle

variable {H L σ : Type} (env : Surroundings H L σ) (here : Focus σ (Watcher H L))

def Act.IsCall (file : FileId) : Act H L → Prop
  | .call j _ _ => j = file
  | .report _ => True
  | _ => False

def Act.IsDelivery (id : FileId) : Act H L → Prop
  | .dispatch j _ => j = id
  | .call j _ _ => j = id
  | .report _ => True
  | _ => False

def Act.IsPoll (id : FileId) (serial : Nat) : Act H L → Prop
  | .capture j watch _ => j = id ∧ watch.serial = serial
  | .store j n _ => j = id ∧ n = serial
  | a => a.IsDelivery id

theorem Act.IsDelivery.isPoll {id : FileId} (serial : Nat) {a : Act H L} (h : a.IsDelivery id) :
    a.IsPoll id serial := by
  cases a with
  | capture => exact h.elim
  | store => exact h.elim
  | report => exact trivial
  | dispatch => exact h
  | call => exact h
  | finish => exact h

theorem Act.IsCall.isDelivery {file : FileId} {a : Act H L} (h : a.IsCall file) :
    a.IsDelivery file := by
  cases a with
  | call => exact h
  | report => exact trivial
  | _ => exact h.elim

theorem isCall_of_mem_callAct {file : FileId} {event : ChangeEvent} {b : Binding L} {s : σ}
    {a : Act H L} (h : a ∈ callAct env file event b s) : a.IsCall file := by
  unfold callAct at h
  rcases List.mem_cons.1 h with rfl | h
  · rfl
  · obtain ⟨d, _, rfl⟩ := Option.map_eq_some_iff.1 (Option.mem_toList.1 h)
    trivial

theorem isCall_of_mem_callActs {file : FileId} {event : ChangeEvent} {bs : List (Binding L)}
    {s : σ} {a : Act H L} (h : a ∈ callActs env here file event bs s) : a.IsCall file := by
  induction bs generalizing s with
  | nil => cases h
  | cons b bs ih =>
    simp only [callActs] at h
    split at h
    · rcases List.mem_append.1 h with h | h
      · exact isCall_of_mem_callAct env h
      · exact ih h
    · exact ih h

theorem isDelivery_of_mem_dispatchActs {file : FileId} {event : ChangeEvent} {s : σ} {a : Act H L}
    (h : a ∈ dispatchActs env here file event s) : a.IsDelivery file := by
  rcases List.mem_cons.1 h with rfl | h
  · rfl
  · exact (isCall_of_mem_callActs env here h).isDelivery

theorem isDelivery_of_mem_deliverActs {id : FileId} {serial : Nat} {es : List ChangeEvent} {s : σ}
    {a : Act H L} (h : a ∈ deliverActs env here id serial es s) : a.IsDelivery id := by
  induction es generalizing s with
  | nil => cases h
  | cons e es ih =>
    simp only [deliverActs] at h
    split at h
    · rcases List.mem_append.1 h with h | h
      · exact isDelivery_of_mem_dispatchActs env here h
      · exact ih h
    · cases h

theorem isDelivery_of_mem_failureActs {id : FileId} {failures : List Failure} {a : Act H L}
    (h : a ∈ failureActs failures) : a.IsDelivery id := by
  obtain ⟨f, _, rfl⟩ := List.mem_map.1 h
  trivial

theorem isPoll_of_mem_captureActs {id : FileId} {watch : Watch H} {s : σ} {a : Act H L}
    (h : a ∈ captureActs env here id watch s) : a.IsPoll id watch.serial := by
  rcases List.mem_cons.1 h with rfl | h
  · exact ⟨rfl, rfl⟩
  · split at h
    · rw [List.mem_singleton.1 h]
      trivial
    · cases h

theorem isPoll_of_mem_settleActs {id : FileId} {watch : Watch H} {v : Visit σ} {a : Act H L}
    (h : a ∈ settleActs env here id watch v) : a.IsPoll id watch.serial := by
  rw [settleActs] at h
  split at h
  · rw [List.mem_singleton.1 h]
    trivial
  · rcases List.mem_append.1 h with h | h
    · rcases List.mem_append.1 h with h | h
      · exact (isDelivery_of_mem_failureActs h).isPoll _
      · exact (isDelivery_of_mem_deliverActs env here h).isPoll _
    · rw [List.mem_singleton.1 h]
      exact ⟨rfl, rfl⟩

theorem isPoll_of_mem_pollActs {id : FileId} {watch : Watch H} {s : σ}
    (hw : (here.get s).watch? id = some watch) {a : Act H L} (h : a ∈ pollActs env here id s) :
    a.IsPoll id watch.serial := by
  simp only [pollActs, hw] at h
  rcases List.mem_append.1 h with h | h
  · exact isPoll_of_mem_captureActs env here h
  · exact isPoll_of_mem_settleActs env here h

theorem event_of_mem_callActs {file j : FileId} {event e : ChangeEvent} {b : Binding L}
    {bs : List (Binding L)} {s : σ} (h : .call j b e ∈ callActs env here file event bs s) :
    e = event := by
  induction bs generalizing s with
  | nil => cases h
  | cons c bs ih =>
    simp only [callActs] at h
    split at h
    · rcases List.mem_append.1 h with h | h
      · rcases List.mem_cons.1 h with h | h
        · cases h
          rfl
        · obtain ⟨d, _, report⟩ := Option.map_eq_some_iff.1 (Option.mem_toList.1 h)
          cases report
      · exact ih h
    · exact ih h

theorem event_of_mem_deliverActs {id j : FileId} {serial : Nat} {es : List ChangeEvent}
    {e : ChangeEvent} {b : Binding L} {s : σ}
    (h : .call j b e ∈ deliverActs env here id serial es s) : e ∈ es := by
  induction es generalizing s with
  | nil => cases h
  | cons event es ih =>
    simp only [deliverActs] at h
    split at h
    · rcases List.mem_append.1 h with h | h
      · rcases List.mem_cons.1 h with h | h
        · cases h
        · rw [event_of_mem_callActs env here h]
          exact List.mem_cons_self
      · exact List.mem_cons_of_mem event (ih h)
    · cases h

theorem event_of_mem_pollActs {id j : FileId} {x : Watch H} {s : σ}
    (hx : (here.get s).watch? id = some x) {e : ChangeEvent} {b : Binding L}
    (h : .call j b e ∈ pollActs env here id s) :
    ∃ snapshot, (visitOf env x s).result = .ok snapshot ∧ e ∈ changes x.last snapshot := by
  simp only [pollActs, hx] at h
  rcases List.mem_append.1 h with h | h
  · rw [captureActs] at h
    rcases List.mem_cons.1 h with h | h
    · cases h
    · split at h
      · cases List.mem_singleton.1 h
      · cases h
  · rw [settleActs, captureWatch_result] at h
    split at h
    · cases List.mem_singleton.1 h
    · next snapshot result =>
      refine ⟨snapshot, result, ?_⟩
      rcases List.mem_append.1 h with h | h
      · rcases List.mem_append.1 h with h | h
        · obtain ⟨f, _, report⟩ := List.mem_map.1 h
          cases report
        · exact event_of_mem_deliverActs env here h
      · cases List.mem_singleton.1 h

def capturesAt (id : FileId) (acts : List (Act H L)) : List (Except FsError Snapshot) :=
  acts.filterMap fun
    | .capture j _ result => if j = id then some result else none
    | _ => none

def snapshotsAt (id : FileId) (acts : List (Act H L)) : List Snapshot :=
  (capturesAt id acts).filterMap Except.toOption

def callsAt (id : FileId) (acts : List (Act H L)) : List (Binding L × ChangeEvent) :=
  acts.filterMap fun
    | .call j b e => if j = id then some (b, e) else none
    | _ => none

theorem capturesAt_append (id : FileId) (xs ys : List (Act H L)) :
    capturesAt id (xs ++ ys) = capturesAt id xs ++ capturesAt id ys :=
  List.filterMap_append

theorem callsAt_append (id : FileId) (xs ys : List (Act H L)) :
    callsAt id (xs ++ ys) = callsAt id xs ++ callsAt id ys :=
  List.filterMap_append

theorem capturesAt_of_isDelivery {id j : FileId} {acts : List (Act H L)}
    (h : ∀ a ∈ acts, a.IsDelivery j) : capturesAt id acts = [] := by
  refine List.filterMap_eq_nil_iff.2 fun a ha => ?_
  have hd := h a ha
  cases a with
  | capture => exact hd.elim
  | _ => rfl

theorem capturesAt_of_isPoll {id j : FileId} (hj : j ≠ id) {serial : Nat} {acts : List (Act H L)}
    (h : ∀ a ∈ acts, a.IsPoll j serial) : capturesAt id acts = [] := by
  refine List.filterMap_eq_nil_iff.2 fun a ha => ?_
  have hd := h a ha
  cases a with
  | capture i watch result =>
    obtain ⟨rfl, _⟩ := hd
    exact if_neg hj
  | _ => rfl

theorem callsAt_of_isPoll {id j : FileId} (hj : j ≠ id) {serial : Nat} {acts : List (Act H L)}
    (h : ∀ a ∈ acts, a.IsPoll j serial) : callsAt id acts = [] := by
  refine List.filterMap_eq_nil_iff.2 fun a ha => ?_
  have hd := h a ha
  cases a with
  | call i b e =>
    have hi : i = j := hd
    subst hi
    exact if_neg hj
  | _ => rfl

theorem pollActs_elsewhere {id j : FileId} (hj : j ≠ id) (s : σ) :
    capturesAt id (pollActs env here j s) = [] ∧ callsAt id (pollActs env here j s) = [] := by
  cases hw : (here.get s).watch? j with
  | none => simp [pollActs, hw, capturesAt, callsAt]
  | some watch =>
    have hp : ∀ a ∈ pollActs env here j s, a.IsPoll j watch.serial :=
      fun a => isPoll_of_mem_pollActs env here hw
    exact ⟨capturesAt_of_isPoll hj hp, callsAt_of_isPoll hj hp⟩

/-- A path is captured with the watch that is in place, an event goes out only for a path that is
watched, and a listener is called only while it is bound. -/
def Act.InPlace (s : σ) : Act H L → Prop
  | .capture id watch _ => (here.get s).watch? id = some watch
  | .dispatch id _ => (here.get s).isWatching id = true
  | .call file b _ => (here.get s).bindings.holds file b.number = true
  | _ => True

section

variable {env here}

end

end PathWatch.Cycle
