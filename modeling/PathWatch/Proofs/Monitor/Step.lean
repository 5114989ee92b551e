import PathWatch.Monitor
import PathWatch.Proofs.Cycle.Trace
import PathWatch.Proofs.Watcher

/-! The steps that a monitor takes, one after the other. Whatever is done with a
monitor is made of them, also what handles and listeners do from inside their
own calls: to add a path is to report what fails in its capture and to register
it, and a round reports, stores and comes to its end. -/
namespace PathWatch

namespace Monitor

inductive Step (H L : Type)
  | register (id : FileId) (file : H) (recursive : Bool) (baseline : Option Snapshot)
  | remove (id : FileId)
  | addListener (id : FileId) (listener : L)
  | removeListener (id : FileId) (number : Nat)
  | start
  | stop
  | close
  | owe (rounds : Nat)
  | setDelay (d : Duration)
  | setChecksPerRun (n : Nat)
  | setRecursive (recursive : Bool)
  | subscribe
  | receive (receiver : Nat)
  | drain (receiver : Nat)
  | drop (receiver : Nat)
  | emit (d : Diagnostic)
  | store (id : FileId) (serial : Nat) (snapshot : Snapshot)
  | finish

/-- What a step has done to the watches and their listeners, or taken from a receiver. To take
away a listener counts whether or not it was there. -/
inductive Deed (H L : Type)
  | added (id : FileId) (watch : Watch H)
  | removed (id : FileId)
  | bound (id : FileId) (binding : Binding L)
  | unbound (id : FileId) (number : Nat)
  | closed
  | taken (receiver : Nat) (reports : List Diagnostic)
  | dropped (receiver : Nat)

variable {H L σ : Type}

def onWatcher (f : Watcher H L → Watcher H L) (m : Monitor H L) : Monitor H L :=
  { m with watcher := f m.watcher }

namespace Step

def apply : Step H L → Monitor H L → Monitor H L
  | .register id file recursive baseline, m => (m.register id file recursive baseline).2
  | .remove id, m => (m.remove id).2
  | .addListener id listener, m => (m.addListener id listener).2
  | .removeListener id number, m => (m.removeListener id number).2
  | .start, m => m.start.2
  | .stop, m => m.stop
  | .close, m => m.close
  | .owe rounds, m => { m with due := rounds }
  | .setDelay d, m => m.onWatcher (·.setDelay d)
  | .setChecksPerRun n, m => m.onWatcher (·.setChecksPerRun n)
  | .setRecursive recursive, m => { m with recursive }
  | .subscribe, m => m.onWatcher fun w => (w.onDiagnostics (·.subscribe)).2
  | .receive i, m => m.onWatcher fun w => (w.onDiagnostics (·.receive i)).2
  | .drain i, m => m.onWatcher fun w => (w.onDiagnostics (·.drain i)).2
  | .drop i, m => m.onWatcher fun w => (w.onDiagnostics fun d => ((), d.drop i)).2
  | .emit d, m => m.onWatcher (·.emit d)
  | .store id serial snapshot, m => m.onWatcher (·.store id serial snapshot)
  | .finish, m => m.onWatcher fun w => { w with cycles := w.cycles + 1 }

def deeds : Step H L → Monitor H L → List (Deed H L)
  | .register id file recursive baseline, m =>
    if m.watcher.isWatching id then []
    else ((m.register id file recursive baseline).2.watcher.watch? id).toList.map (.added id)
  | .remove id, m => if (m.remove id).1 then [.removed id] else []
  | .addListener id listener, m =>
    (m.addListener id listener).1.toList.map fun number => .bound id ⟨number, listener⟩
  | .removeListener id number, _ => [.unbound id number]
  | .close, m => if m.phase = .closed then [] else [.closed]
  | .receive i, m =>
    match (m.watcher.diagnostics.receive i).1 with
    | .report d => [.taken i [d]]
    | .empty => []
    | .disconnected => []
  | .drain i, m => [.taken i (m.watcher.diagnostics.drain i).1]
  | .drop i, _ => [.dropped i]
  | _, _ => []

end Step

inductive Steps : Monitor H L → List (Deed H L) → Monitor H L → Prop
  | rest {m : Monitor H L} : Steps m [] m
  | step {m m' : Monitor H L} {later : List (Deed H L)} (first : Step H L)
      (rest : Steps (first.apply m) later m') : Steps m (first.deeds m ++ later) m'

namespace Steps

variable {m m' m'' : Monitor H L} {deeds later : List (Deed H L)}

theorem single (step : Step H L) (m : Monitor H L) : Steps m (step.deeds m) (step.apply m) := by
  have h := Steps.step step (rest (m := step.apply m))
  rwa [List.append_nil] at h

theorem trans (h : Steps m deeds m') (h' : Steps m' later m'') :
    Steps m (deeds ++ later) m'' := by
  induction h with
  | rest => exact h'
  | step first _ ih =>
    rw [List.append_assoc]
    exact step first (ih h')

end Steps

def Follows (m m' : Monitor H L) : Prop := ∃ deeds, Steps m deeds m'

def Reached (m : Monitor H L) : Prop := ∃ listener config, Follows (new listener config) m

namespace Follows

variable {m m' m'' : Monitor H L}

theorem refl (m : Monitor H L) : Follows m m := ⟨[], .rest⟩

theorem single (step : Step H L) (m : Monitor H L) : Follows m (step.apply m) := ⟨_, .single step m⟩

theorem trans (h : Follows m m') (h' : Follows m' m'') : Follows m m'' := by
  obtain ⟨deeds, hs⟩ := h
  obtain ⟨later, hl⟩ := h'
  exact ⟨deeds ++ later, hs.trans hl⟩

theorem all (steps : List (Step H L)) (m : Monitor H L) :
    Follows m (steps.foldl (fun m step => step.apply m) m) := by
  induction steps generalizing m with
  | nil => exact refl m
  | cons step steps ih => exact (single step m).trans (ih _)

end Follows

theorem Reached.follows {m m' : Monitor H L} (h : Reached m) (h' : Follows m m') : Reached m' := by
  obtain ⟨listener, config, first⟩ := h
  exact ⟨listener, config, first.trans h'⟩

structure Confined (env : Surroundings H L σ) (here : Focus σ (Monitor H L)) (R : σ → σ → Prop) :
    Prop extends env.Within R where
  quiet : ∀ (step : Step H L) s, step.deeds (here.get s) = [] → R s (here.update step.apply s)

namespace Confined

variable {env : Surroundings H L σ} {here : Focus σ (Monitor H L)} {R : σ → σ → Prop}
  (confined : Confined env here R)
include confined

theorem act (a : Cycle.Act H L) (s : σ) : R s (a.apply env (here.within watcherFocus) s) := by
  cases a with
  | capture id watch result => exact Capture.visit_within confined.questions _ _ _ _ _
  | report d => exact confined.quiet (.emit d) s rfl
  | dispatch => exact confined.refl s
  | call _ b e => exact confined.call _ _ _
  | store id serial snapshot => exact confined.quiet (.store id serial snapshot) s rfl
  | finish => exact confined.quiet .finish s rfl

theorem replay (acts : List (Cycle.Act H L)) (s : σ) :
    R s (Cycle.replay env (here.within watcherFocus) acts s) := by
  refine Cycle.replay_induction (motive := R s) (confined.refl s) ?_
  intro a _ t ht
  exact confined.trans ht (confined.act a t)

theorem round (ids : List FileId) (s : σ) :
    R s (Cycle.runInOrder env (here.within watcherFocus) ids s).2 := by
  rw [← Cycle.replay_roundActs]
  exact confined.replay _ s

theorem baseline (file : H) (recursive : Bool) (s : σ) :
    R s (baseline env here file recursive s).2 := by
  have visited := Capture.visit_within confined.questions recursive (env.depth s) file none s
  rw [Monitor.baseline]
  split
  · rw [← Cycle.replay_failureActs env]
    exact confined.trans visited (confined.replay _ _)
  · exact confined.trans visited (confined.quiet (.emit _) _ rfl)

end Confined

def Led (here : Focus σ (Monitor H L)) (s t : σ) : Prop := Follows (here.get s) (here.get t)

variable {env : Surroundings H L σ} {here : Focus σ (Monitor H L)}

theorem register_eq {id : FileId} {m : Monitor H L} (opened : m.watcher.closed = false)
    (unwatched : m.watcher.isWatching id = false) (file : H) (recursive : Bool)
    (baseline : Option Snapshot) : m.register id file recursive baseline =
      (.ok (), m.insert id file recursive baseline) := by
  simp [register, opened, unwatched]

section

variable (m : Monitor H L) (id : FileId) (file : H) (recursive : Bool) (baseline : Option Snapshot)

theorem watch?_insert (j : FileId) : (m.insert id file recursive baseline).watcher.watch? j =
    if j = id then some ⟨file, recursive, baseline, m.watcher.serial + 1⟩
    else m.watcher.watch? j := by
  have inserted := Watcher.watch?_insert id j file recursive baseline m.watcher
  rw [insert]
  cases m.listener <;> exact inserted

theorem serial_insert :
    (m.insert id file recursive baseline).watcher.serial = m.watcher.serial + 1 := by
  rw [insert]
  cases m.listener <;> rfl

theorem closed_insert : (m.insert id file recursive baseline).phase = m.phase ∧
    (m.insert id file recursive baseline).watcher.closed = m.watcher.closed := by
  rw [insert]
  cases m.listener <;> exact ⟨rfl, rfl⟩

theorem register_cases :
    let step : Step H L := .register id file recursive baseline
    (step.apply m = m ∧ step.deeds m = []) ∨
      (m.watcher.isWatching id = false ∧ step.apply m = m.insert id file recursive baseline ∧
        step.deeds m = [.added id ⟨file, recursive, baseline, m.watcher.serial + 1⟩]) := by
  intro step
  cases watched : m.watcher.isWatching id with
  | true =>
    cases closed : m.watcher.closed <;>
      simp [step, Step.apply, Step.deeds, register, watched, closed]
  | false =>
    cases closed : m.watcher.closed with
    | true =>
      have none : m.watcher.watch? id = none := by
        simpa [Watcher.isWatching] using watched
      simp [step, Step.apply, Step.deeds, register, watched, closed, none]
    | false =>
      have put := register_eq closed watched file recursive baseline
      simp [step, Step.apply, Step.deeds, put, watched, watch?_insert]

end

variable (env here) in
theorem add_eq {file : H} {s : σ} (opened : (here.get s).watcher.closed = false)
    (unwatched : (here.get s).watcher.isWatching (env.id file) = false) (recursive : Bool) :
    add env here file recursive s =
      here.step (register (env.id file) file recursive (baseline env here file recursive s).1)
        (baseline env here file recursive s).2 := by
  simp only [add, opened, unwatched, Bool.false_eq_true, if_false]

end Monitor

end PathWatch
