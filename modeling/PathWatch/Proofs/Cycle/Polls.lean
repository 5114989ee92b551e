import PathWatch.Proofs.Cycle.Stale
import PathWatch.Proofs.Cycle.Turns

/-! The polls that a round is made of, and the course that each of them takes. -/
namespace PathWatch

def Diagnostic.tellsCapture : Diagnostic → Bool
  | captureFailed .. => true
  | _ => false

namespace Cycle

variable {H L σ : Type} {env : Surroundings H L σ} {here : Focus σ (Watcher H L)}

section

variable {xs ys : List (Act H L)}

def emitted (acts : List (Act H L)) : List Diagnostic := acts.filterMap Act.report?

def Act.event? : Act H L → Option ChangeEvent
  | .dispatch _ e => some e
  | _ => none

def dispatched (acts : List (Act H L)) : List ChangeEvent := acts.filterMap Act.event?

theorem emitted_append : emitted (xs ++ ys) = emitted xs ++ emitted ys := List.filterMap_append

theorem emitted_reports (ds : List Diagnostic) :
    emitted (ds.map (Act.report (H := H) (L := L))) = ds := by
  rw [emitted, List.filterMap_map]
  exact List.filterMap_some

theorem dispatched_append : dispatched (xs ++ ys) = dispatched xs ++ dispatched ys :=
  List.filterMap_append
end

/-- A poll of a round: its path, the watch that it found in place, and the state it began in. -/
structure Poll (H σ : Type) where
  id : FileId
  watch : Watch H
  start : σ

variable (env here) in
/-- The polls of a round, one at the turn of each path that is watched then. -/
def polls : List FileId → σ → List (Poll H σ)
  | [], _ => []
  | id :: ids, s =>
    if (here.get s).closed then []
    else
      (((here.get s).watch? id).map fun x => ⟨id, x, s⟩).toList ++
        polls ids (replay env here (pollActs env here id s) s)

namespace Poll

variable (env) in
def visit (p : Poll H σ) : Visit σ := visitOf env p.watch p.start

variable (env) in
/-- One report for the path if it could not be captured, and else one for each failure below it,
in the order in which they were found. -/
def told (p : Poll H σ) : List Diagnostic :=
  match (p.visit env).result with
  | .error e => [.captureFailed p.id e.message]
  | .ok _ => (p.visit env).failures.map fun f => .captureFailed f.file f.error.message

variable (env here) in
def acts (p : Poll H σ) : List (Act H L) := pollActs env here p.id p.start

variable (env) in
def stored (p : Poll H σ) : List (Act H L) :=
  match (p.visit env).result with
  | .error _ => []
  | .ok snapshot => [.store p.id p.watch.serial snapshot]

variable (env) in
def opening (p : Poll H σ) (slow : List (Act H L)) : List (Act H L) :=
  .capture p.id p.watch (p.visit env).result :: slow ++ (p.told env).map .report

variable (env here) in
/-- All reports of failed captures go out before the first event does. Events go out in their order
and each while the watch is in place, up to the last or to the moment when it is not. -/
structure Course (p : Poll H σ) (slow delivering : List (Act H L)) : Prop where
  acts : p.acts env here = p.opening env slow ++ delivering ++ p.stored env
  slow_reports : ∀ a ∈ slow, a.tellsSlow = true
  delivery : ∀ a ∈ delivering, a.IsDelivery p.id ∧ a.tellsCapture = false
  current : Throughout env here (Guarded here p.id p.watch.serial) delivering
    (replay env here (p.opening env slow) p.start)
  in_order : dispatched delivering <+: news p.watch.last (p.visit env).result
  complete : dispatched delivering = news p.watch.last (p.visit env).result ∨
    (here.get (replay env here (p.opening env slow ++ delivering) p.start)).isCurrent
      p.id p.watch.serial = false

end Poll

section

variable {id : FileId} {serial : Nat} {s : σ}

theorem tellsCapture_callActs {file : FileId} {event : ChangeEvent} {bs : List (Binding L)}
    {a : Act H L} (h : a ∈ callActs env here file event bs s) :
    a.tellsCapture = false ∧ a.event? = none := by
  induction bs generalizing s with
  | nil => cases h
  | cons b bs ih =>
    simp only [callActs] at h
    split at h
    · rcases List.mem_append.1 h with h | h
      · rcases List.mem_cons.1 h with rfl | h
        · exact ⟨rfl, rfl⟩
        · obtain ⟨d, told, rfl⟩ := Option.map_eq_some_iff.1 (Option.mem_toList.1 h)
          cases o : (env.call b.listener event s).1 <;> rw [o] at told <;> cases told <;>
            exact ⟨rfl, rfl⟩
      · exact ih h
    · exact ih h

theorem tellsCapture_deliverActs {es : List ChangeEvent} {a : Act H L}
    (h : a ∈ deliverActs env here id serial es s) : a.tellsCapture = false := by
  induction es generalizing s with
  | nil => cases h
  | cons e es ih =>
    simp only [deliverActs] at h
    split at h
    · rcases List.mem_append.1 h with h | h
      · rcases List.mem_cons.1 h with rfl | h
        · rfl
        · exact (tellsCapture_callActs h).1
      · exact ih h
    · cases h

theorem dispatched_dispatchActs (file : FileId) (event : ChangeEvent) (s : σ) :
    dispatched (dispatchActs env here file event s) = [event] := by
  have calls : dispatched (callActs env here file event ((here.get s).bindings.of file) s) = [] :=
    List.filterMap_eq_nil_iff.2 fun a ha => (tellsCapture_callActs ha).2
  exact congrArg (event :: ·) calls

variable (env here id serial) in
theorem dispatched_deliverActs (es : List ChangeEvent) (s : σ) :
    let acts := deliverActs env here id serial es s
    dispatched acts <+: es ∧ (dispatched acts = es ∨
      (here.get (replay env here acts s)).isCurrent id serial = false) := by
  induction es generalizing s with
  | nil => exact ⟨List.prefix_rfl, .inl rfl⟩
  | cons e es ih =>
    cases current : (here.get s).isCurrent id serial with
    | false =>
      simp only [deliverActs, current]
      exact ⟨List.nil_prefix, .inr current⟩
    | true =>
      obtain ⟨front, all⟩ := ih (replay env here (dispatchActs env here id e s) s)
      simp only [deliverActs, current, if_true, dispatched_append, dispatched_dispatchActs,
        replay_append, List.singleton_append]
      exact ⟨(List.prefix_cons_inj e).2 front, all.imp_left (congrArg (e :: ·))⟩

theorem failureActs_eq (failures : List Failure) : failureActs (H := H) (L := L) failures =
    (failures.map fun f => Diagnostic.captureFailed f.file f.error.message).map .report := by
  rw [failureActs, List.map_map]
  rfl

end

variable (env here) in
theorem captureActs_eq (id : FileId) (x : Watch H) (s : σ) :
    ∃ slow, captureActs env here id x s = .capture id x (visitOf env x s).result :: slow ∧
      ∀ a ∈ slow, a.tellsSlow = true := by
  refine ⟨_, rfl, ?_⟩
  intro a ha
  split at ha
  · rw [List.mem_singleton.1 ha]
    rfl
  · cases ha

theorem captureWatch_failures (id : FileId) (x : Watch H) (s : σ) :
    (captureWatch env here id x s).failures = (visitOf env x s).failures := by
  rw [captureWatch_eq]
  dsimp only
  split <;> rfl

variable (env here) in
theorem Poll.course (p : Poll H σ) (watched : (here.get p.start).watch? p.id = some p.watch) :
    ∃ slow delivering, p.Course env here slow delivering := by
  obtain ⟨slow, capture, slow_reports⟩ := captureActs_eq env here p.id p.watch p.start
  let es := news p.watch.last (p.visit env).result
  let t := replay env here (p.opening env slow) p.start
  have settle : settleActs env here p.id p.watch (captureWatch env here p.id p.watch p.start) =
      (p.told env).map .report ++ deliverActs env here p.id p.watch.serial es t ++
        p.stored env := by
    have after : (captureWatch env here p.id p.watch p.start).after =
        replay env here (.capture p.id p.watch (p.visit env).result :: slow) p.start := by
      rw [← replay_captureActs, capture]
      rfl
    have told : t = replay env here ((p.told env).map .report)
        (captureWatch env here p.id p.watch p.start).after := by
      rw [after, ← replay_append]
      rfl
    rw [settleActs, captureWatch_result, captureWatch_failures, told, failureActs_eq]
    simp only [es, news, Poll.told, Poll.stored, Poll.visit]
    cases (visitOf env p.watch p.start).result <;> simp [deliverActs]
  obtain ⟨in_order, complete⟩ := dispatched_deliverActs env here p.id p.watch.serial es t
  refine ⟨slow, deliverActs env here p.id p.watch.serial es t, ?_, slow_reports, ?_,
    guarded_deliverActs es, in_order, ?_⟩
  · simp only [Poll.acts, pollActs, watched, capture, settle, Poll.opening, List.append_assoc,
      List.cons_append]
    rfl
  · exact fun a ha => ⟨isDelivery_of_mem_deliverActs env here ha, tellsCapture_deliverActs ha⟩
  · rw [replay_append]
    exact complete

variable (env here) in
theorem pollEachActs_eq_polls (ids : List FileId) (s : σ) :
    pollEachActs env here ids s = (polls env here ids s).flatMap (Poll.acts env here) := by
  induction ids generalizing s with
  | nil => rfl
  | cons id ids ih =>
    simp only [pollEachActs, polls]
    split
    · rfl
    · rw [List.flatMap_append, ← ih]
      congr 1
      cases watched : (here.get s).watch? id with
      | none => simp [pollActs, watched]
      | some x => simp [Poll.acts]

theorem polls_split {ids : List FileId} {s : σ} {front back : List (Poll H σ)} {p : Poll H σ}
    (h : polls env here ids s = front ++ p :: back) :
    p.start = replay env here (front.flatMap (Poll.acts env here)) s ∧
      (here.get p.start).watch? p.id = some p.watch := by
  induction ids generalizing s front with
  | nil => simp [polls] at h
  | cons id ids ih =>
    simp only [polls] at h
    split at h
    · simp at h
    · cases watched : (here.get s).watch? id with
      | none =>
        have none : pollActs env here id s = [] := by rw [pollActs, watched]
        rw [watched, none] at h
        exact ih h
      | some x =>
        rw [watched] at h
        cases front with
        | nil =>
          obtain ⟨rfl, _⟩ := List.cons_eq_cons.1 h
          exact ⟨rfl, watched⟩
        | cons q front =>
          obtain ⟨rfl, rest⟩ := List.cons_eq_cons.1 h
          obtain ⟨start, there⟩ := ih rest
          rw [List.flatMap_cons, replay_append]
          exact ⟨start, there⟩

def Act.result? : Act H L → Option (Except FsError Snapshot)
  | .capture _ _ result => some result
  | _ => none

def results (acts : List (Act H L)) : List (Except FsError Snapshot) := acts.filterMap Act.result?

def captureReports (acts : List (Act H L)) : List Diagnostic :=
  (emitted acts).filter Diagnostic.tellsCapture

theorem captureReports_append (xs ys : List (Act H L)) :
    captureReports (xs ++ ys) = captureReports xs ++ captureReports ys := by
  rw [captureReports, emitted_append, List.filter_append]
  rfl

theorem captureReports_of_forall {acts : List (Act H L)} (h : ∀ a ∈ acts, a.tellsCapture = false) :
    captureReports acts = [] := by
  apply List.filter_eq_nil_iff.2
  intro d hd
  obtain ⟨a, ha, told⟩ := List.mem_filterMap.1 hd
  have silent := h a ha
  cases a with
  | report e =>
    cases told
    cases d with
    | captureFailed => cases silent
    | _ => exact Bool.false_ne_true
  | _ => cases told

theorem Poll.tellsCapture_of_mem_told {p : Poll H σ} {d : Diagnostic} (h : d ∈ p.told env) :
    d.tellsCapture = true := by
  rw [told] at h
  split at h
  · rw [List.mem_singleton.1 h]
    rfl
  · obtain ⟨f, _, rfl⟩ := List.mem_map.1 h
    rfl

namespace Poll.Course

variable {p : Poll H σ} {slow delivering : List (Act H L)} (h : p.Course env here slow delivering)
include h

theorem results_eq : results (p.acts env here) = [(p.visit env).result] := by
  have nothing {acts : List (Act H L)} (none : ∀ a ∈ acts, a.result? = none) : results acts = [] :=
    List.filterMap_eq_nil_iff.2 none
  have slowly : results slow = [] := nothing fun a ha => by
    have told := h.slow_reports a ha
    cases a <;> first | rfl | cases told
  have telling : results ((p.told env).map (Act.report (H := H) (L := L))) = [] :=
    nothing fun a ha => by
      obtain ⟨d, _, rfl⟩ := List.mem_map.1 ha
      rfl
  have delivered : results delivering = [] := nothing fun a ha => by
    have delivery := (h.delivery a ha).1
    cases a with
    | capture => exact delivery.elim
    | _ => rfl
  have storing : results (p.stored env (L := L)) = [] := by
    rw [stored]
    split <;> rfl
  rw [h.acts, opening]
  simp only [results, List.cons_append, List.filterMap_cons, List.filterMap_append] at *
  rw [slowly, telling, delivered, storing]
  rfl

theorem captureReports_eq : captureReports (p.acts env here) = p.told env := by
  have begun : captureReports (.capture p.id p.watch (p.visit env).result :: slow) = [] := by
    apply captureReports_of_forall
    intro a ha
    rcases List.mem_cons.1 ha with rfl | ha
    · rfl
    · have told := h.slow_reports a ha
      cases a with
      | report d => cases d <;> first | rfl | cases told
      | _ => rfl
  have telling : captureReports ((p.told env).map (Act.report (H := H) (L := L))) = p.told env := by
    rw [captureReports, emitted_reports]
    exact List.filter_eq_self.2 fun d => tellsCapture_of_mem_told
  have delivered : captureReports delivering = [] :=
    captureReports_of_forall fun a ha => (h.delivery a ha).2
  have storing : captureReports (p.stored env (L := L)) = [] := by
    apply captureReports_of_forall
    intro a ha
    rw [stored] at ha
    split at ha
    · cases ha
    · rw [List.mem_singleton.1 ha]
      rfl
  rw [h.acts, opening, captureReports_append, captureReports_append, captureReports_append, begun,
    telling, delivered, storing, List.append_nil, List.append_nil, List.nil_append]

end Poll.Course

section

variable {ids : List FileId} {s : σ} {p : Poll H σ}

theorem course_of_mem_polls (h : p ∈ polls env here ids s) :
    (here.get p.start).watch? p.id = some p.watch ∧
      ∃ slow delivering, p.Course env here slow delivering := by
  obtain ⟨front, back, split⟩ := List.append_of_mem h
  obtain ⟨_, watched⟩ := polls_split split
  exact ⟨watched, p.course env here watched⟩

variable (env here) in
theorem flatMap_polls {α : Type} {f : List (Act H L) → List α} {g : Poll H σ → List α}
    (append : ∀ xs ys, f (xs ++ ys) = f xs ++ f ys) (finish : f [.finish] = [])
    (each : ∀ p ∈ polls env here ids s, f (p.acts env here) = g p) :
    f (roundActs env here ids s) = (polls env here ids s).flatMap g := by
  have nil : f [] = [] := by simpa using append [] []
  have all (ps : List (Poll H σ)) (h : ∀ p ∈ ps, f (p.acts env here) = g p) :
      f (ps.flatMap (Poll.acts env here)) = ps.flatMap g := by
    induction ps with
    | nil => exact nil
    | cons p ps ih =>
      obtain ⟨first, rest⟩ := List.forall_mem_cons.1 h
      rw [List.flatMap_cons, List.flatMap_cons, append, first, ih rest]
  rw [roundActs, append, finish, List.append_nil, pollEachActs_eq_polls, all _ each]

variable (env here ids s)

theorem results_roundActs : results (roundActs env here ids s) =
    (polls env here ids s).map fun p => (p.visit env).result := by
  rw [List.map_eq_flatMap]
  refine flatMap_polls env here (fun _ _ => List.filterMap_append) rfl ?_
  intro p hp
  obtain ⟨_, _, _, course⟩ := course_of_mem_polls hp
  exact course.results_eq

theorem captureReports_roundActs : captureReports (roundActs env here ids s) =
    (polls env here ids s).flatMap (Poll.told env) := by
  refine flatMap_polls env here captureReports_append rfl ?_
  intro p hp
  obtain ⟨_, _, _, course⟩ := course_of_mem_polls hp
  exact course.captureReports_eq

theorem polledIds_eq_polls : polledIds (roundActs env here ids s) =
    (polls env here ids s).map Poll.id := by
  rw [List.map_eq_flatMap]
  refine flatMap_polls env here polledIds_append rfl ?_
  intro p hp
  obtain ⟨watched, _⟩ := course_of_mem_polls hp
  rw [Poll.acts, polledIds_pollActs, Watcher.isWatching, watched]
  rfl

end

end Cycle

end PathWatch
