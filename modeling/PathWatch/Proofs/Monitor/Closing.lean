import PathWatch.Proofs.Cycle.Acts
import PathWatch.Proofs.Monitor.Step

/-! A monitor that was closed stays closed, wherever the close came from: nothing
is watched or bound any more, the round under way calls nobody, and receivers
still hand out what they hold and are cut off then. -/
namespace PathWatch

variable {H L σ : Type}

def Cycle.Act.IsIdle : Cycle.Act H L → Prop
  | .capture .. => False
  | .dispatch .. => False
  | .call .. => False
  | _ => True

namespace Monitor

structure Shut (m : Monitor H L) : Prop where
  phase : m.phase = .closed
  closed : m.watcher.closed = true
  watches : m.watcher.watches = []
  table : m.watcher.bindings.table = []

structure Unshut (m : Monitor H L) : Prop where
  phase : m.phase ≠ .closed
  closed : m.watcher.closed = false

/-- What can still be done with a monitor that was closed: nothing but reading. -/
structure Over (m : Monitor H L) : Prop where
  phase : m.phase = .closed
  watched : m.watched = []
  bound : ∀ id, m.watcher.bindings.isBound id = false
  start : m.start = (.error .closed, m)
  register : ∀ id file recursive baseline,
    m.register id file recursive baseline = (.error .closed, m)
  addListener : ∀ id listener, m.addListener id listener = (none, m)
  remove : ∀ id, m.remove id = (false, m)
  removeListener : ∀ id number, m.removeListener id number = (false, m)

variable {m m' : Monitor H L}

theorem Shut.watch? (h : Shut m) (id : FileId) : m.watcher.watch? id = none := by
  rw [Watcher.watch?, h.watches]
  rfl

theorem Shut.isWatching (h : Shut m) (id : FileId) : m.watcher.isWatching id = false := by
  rw [Watcher.isWatching, h.watch?]
  rfl

theorem Shut.bindings_of (h : Shut m) (id : FileId) : m.watcher.bindings.of id = [] := by
  rw [Bindings.of, h.table]
  rfl

theorem Shut.erase_table (h : Shut m) (id : FileId) :
    Keyed.erase id m.watcher.bindings.table = m.watcher.bindings.table := by
  rw [h.table]
  rfl

theorem Shut.ended (h : Shut m) : Over m where
  phase := h.phase
  watched := by rw [Monitor.watched, h.watches]; rfl
  bound id := by rw [Bindings.isBound, h.table]; rfl
  start := by rw [Monitor.start, h.phase]
  register id file recursive baseline := if_pos h.closed
  addListener id listener := by simp [Monitor.addListener, h.isWatching]
  remove id := by
    have watches : Keyed.erase id m.watcher.watches = m.watcher.watches := by rw [h.watches]; rfl
    simp [Monitor.remove, Watcher.remove, Bindings.unbind, h.isWatching, watches, h.erase_table]
  removeListener id number := by
    simp [Monitor.removeListener, Watcher.unbindListener, Bindings.unbindListener, Bindings.holds,
      h.bindings_of, h.erase_table]

theorem Shut.stop_eq (h : Shut m) : m.stop = m := if_neg (by rw [h.phase]; nofun)

theorem Shut.close_eq (h : Shut m) : m.close = m := if_pos h.phase

theorem Shut.store_eq (h : Shut m) (id : FileId) (serial : Nat) (snapshot : Snapshot) :
    m.watcher.store id serial snapshot = m.watcher := by
  apply Watcher.store_of_not_current
  rw [Watcher.isCurrent, h.watch?]
  rfl

theorem Unshut.close (h : Unshut m) : Shut m.close := by
  rw [Monitor.close, if_neg h.phase]
  exact ⟨rfl, rfl, rfl, rfl⟩

theorem Shut.step (h : Shut m) (step : Step H L) : Shut (step.apply m) := by
  have ended := h.ended
  have frame {w : Watcher H L} (closed : w.closed = m.watcher.closed)
      (watches : w.watches = m.watcher.watches)
      (table : w.bindings.table = m.watcher.bindings.table) : Shut { m with watcher := w } :=
    ⟨h.phase, closed.trans h.closed, watches.trans h.watches, table.trans h.table⟩
  cases step with
  | register id file recursive baseline => rwa [Step.apply, ended.register]
  | remove id => rwa [Step.apply, ended.remove]
  | addListener id listener => rwa [Step.apply, ended.addListener]
  | removeListener id number => rwa [Step.apply, ended.removeListener]
  | start => rwa [Step.apply, ended.start]
  | stop => rwa [Step.apply, h.stop_eq]
  | close => rwa [Step.apply, h.close_eq]
  | owe rounds => exact ⟨h.phase, h.closed, h.watches, h.table⟩
  | setRecursive recursive => exact ⟨h.phase, h.closed, h.watches, h.table⟩
  | store id serial snapshot => rwa [Step.apply, onWatcher, h.store_eq]
  | _ => exact frame rfl rfl rfl

theorem Unshut.step (h : Unshut m) (step : Step H L) :
    Unshut (step.apply m) ∨ Shut (step.apply m) := by
  cases step with
  | close => exact .inr h.close
  | register id file recursive baseline =>
    refine .inl ?_
    rcases register_cases m id file recursive baseline with ⟨still, _⟩ | ⟨_, put, _⟩
    · rwa [still]
    · obtain ⟨phase, closed⟩ := closed_insert m id file recursive baseline
      rw [put]
      exact ⟨phase ▸ h.phase, closed.trans h.closed⟩
  | addListener id listener =>
    refine .inl ?_
    rw [Step.apply, addListener]
    split
    · exact ⟨h.phase, h.closed⟩
    · exact h
  | start =>
    refine .inl ?_
    rw [Step.apply, start]
    split
    · exact h
    · exact h
    · exact ⟨Phase.noConfusion, h.closed⟩
    · exact ⟨Phase.noConfusion, h.closed⟩
  | stop =>
    refine .inl ?_
    rw [Step.apply, stop]
    split
    · exact ⟨Phase.noConfusion, h.closed⟩
    · exact h
  | store id serial snapshot =>
    have closed := (m.watcher.store_frame id serial snapshot).2.1
    exact .inl ⟨h.phase, closed.trans h.closed⟩
  | _ => exact .inl ⟨h.phase, h.closed⟩

theorem Shut.follows (h : Shut m) (later : Follows m m') : Shut m' := by
  obtain ⟨deeds, steps⟩ := later
  induction steps with
  | rest => exact h
  | step first _ ih => exact ih (h.step first)

theorem Unshut.follows (h : Unshut m) (later : Follows m m') : Unshut m' ∨ Shut m' := by
  obtain ⟨deeds, steps⟩ := later
  induction steps with
  | rest => exact .inl h
  | step first rest ih =>
    rcases h.step first with still | shut
    · exact ih still
    · exact .inr (shut.follows ⟨_, rest⟩)

theorem Reached.unshut_or_shut (h : Reached m) : Unshut m ∨ Shut m := by
  obtain ⟨listener, config, later⟩ := h
  have fresh : Unshut (new listener config : Monitor H L) := ⟨nofun, rfl⟩
  exact fresh.follows later

theorem Reached.shut (h : Reached m) (closed : m.phase = .closed) : Shut m :=
  h.unshut_or_shut.resolve_left fun still => still.phase closed

theorem Reached.close (h : Reached m) : Shut m.close := by
  rcases h.unshut_or_shut with still | shut
  · exact still.close
  · rwa [shut.close_eq]

def taken (i : Nat) (deeds : List (Deed H L)) : List Diagnostic :=
  deeds.flatMap fun
    | .taken j reports => if j = i then reports else []
    | _ => []

theorem taken_append (i : Nat) (deeds later : List (Deed H L)) :
    taken i (deeds ++ later) = taken i deeds ++ taken i later :=
  List.flatMap_append

def Left (i : Nat) (reports : List Diagnostic) (d : Diagnostics) : Prop :=
  ∃ r, d.receivers[i]? = some r ∧ r.connected = false ∧ r.queue = reports

section

variable {i : Nat} {reports : List Diagnostic} {d : Diagnostics}

theorem Left.emit (h : Left i reports d) (x : Diagnostic) : Left i reports (d.emit x) := by
  obtain ⟨r, hr, cut, queue⟩ := h
  have same : r.offer d.capacity x = r := by simp [Receiver.offer, cut]
  exact ⟨r, by simp [Diagnostics.emit, hr, same], cut, queue⟩

theorem Left.subscribe (h : Left i reports d) : Left i reports d.subscribe.2 := by
  obtain ⟨r, hr, rest⟩ := h
  obtain ⟨inside, _⟩ := List.getElem?_eq_some_iff.1 hr
  exact ⟨r, (List.getElem?_append_left inside).trans hr, rest⟩

theorem getElem?_onReceiver {r : Receiver} (hr : d.receivers[i]? = some r) (f : Receiver → Receiver) :
    (d.onReceiver i f).receivers[i]? = some (f r) := by
  simp [Diagnostics.onReceiver, hr]

theorem Left.onReceiver_ne (h : Left i reports d) {j : Nat} (hj : j ≠ i) (f : Receiver → Receiver) :
    Left i reports (d.onReceiver j f) := by
  obtain ⟨r, hr, rest⟩ := h
  exact ⟨r, by simp [Diagnostics.onReceiver, hr, hj], rest⟩

theorem Left.receive_ne (h : Left i reports d) {j : Nat} (hj : j ≠ i) :
    Left i reports (d.receive j).2 := by
  rw [Diagnostics.receive]
  split
  · exact h.onReceiver_ne hj _
  · exact h

theorem Left.drain_ne (h : Left i reports d) {j : Nat} (hj : j ≠ i) :
    Left i reports (d.drain j).2 := by
  rw [Diagnostics.drain]
  split
  · exact h.onReceiver_ne hj _
  · exact h

theorem Left.receive (h : Left i reports d) :
    (reports = [] ∧ (d.receive i).1 = .disconnected ∧ Left i [] (d.receive i).2) ∨
      ∃ x rest, reports = x :: rest ∧ (d.receive i).1 = .report x ∧ Left i rest (d.receive i).2 := by
  obtain ⟨r, hr, cut, rfl⟩ := h
  simp only [Diagnostics.receive, hr, Receiver.take]
  cases hq : r.queue with
  | nil => exact .inl ⟨rfl, by simp [cut], r, getElem?_onReceiver hr _, cut, hq⟩
  | cons x rest => exact .inr ⟨x, rest, rfl, rfl, _, getElem?_onReceiver hr _, cut, rfl⟩

theorem Left.drain (h : Left i reports d) :
    (d.drain i).1 = reports ∧ Left i [] (d.drain i).2 := by
  obtain ⟨r, hr, cut, rfl⟩ := h
  have drained : d.drain i = (r.queue, d.onReceiver i fun r => { r with queue := [] }) := by
    simp only [Diagnostics.drain, hr]
  rw [drained]
  exact ⟨rfl, _, getElem?_onReceiver hr _, cut, rfl⟩

end

theorem Shut.step_left (h : Shut m) {i : Nat} {reports : List Diagnostic}
    (left : Left i reports m.watcher.diagnostics) (step : Step H L)
    (kept : .dropped i ∉ step.deeds m) : ∃ rest, reports = taken i (step.deeds m) ++ rest ∧
      Left i rest (step.apply m).watcher.diagnostics := by
  have ended := h.ended
  cases step with
  | register id file recursive baseline =>
    refine ⟨reports, ?_, ?_⟩
    · simp [Step.deeds, ended.register, h.isWatching, h.watch?, taken]
    · rwa [Step.apply, ended.register]
  | remove id =>
    refine ⟨reports, ?_, left⟩
    simp [Step.deeds, ended.remove, taken]
  | addListener id listener =>
    refine ⟨reports, ?_, ?_⟩
    · simp [Step.deeds, ended.addListener, taken]
    · rwa [Step.apply, ended.addListener]
  | start =>
    refine ⟨reports, rfl, ?_⟩
    rwa [Step.apply, ended.start]
  | stop =>
    refine ⟨reports, rfl, ?_⟩
    rwa [Step.apply, h.stop_eq]
  | close =>
    refine ⟨reports, ?_, ?_⟩
    · simp [Step.deeds, h.phase, taken]
    · rwa [Step.apply, h.close_eq]
  | subscribe => exact ⟨reports, rfl, left.subscribe⟩
  | emit x => exact ⟨reports, rfl, left.emit x⟩
  | store id serial snapshot =>
    refine ⟨reports, rfl, ?_⟩
    rwa [Step.apply, onWatcher, h.store_eq]
  | receive j =>
    by_cases hj : j = i
    · subst hj
      rcases left.receive with ⟨rfl, none, later⟩ | ⟨x, rest, rfl, some, later⟩
      · exact ⟨[], by simp [Step.deeds, none, taken], later⟩
      · exact ⟨rest, by simp [Step.deeds, some, taken], later⟩
    · refine ⟨reports, ?_, left.receive_ne hj⟩
      simp only [Step.deeds]
      split <;> simp [taken, hj]
  | drain j =>
    by_cases hj : j = i
    · subst hj
      obtain ⟨all, later⟩ := left.drain
      exact ⟨[], by simp [Step.deeds, all, taken], later⟩
    · exact ⟨reports, by simp [Step.deeds, taken, hj], left.drain_ne hj⟩
  | drop j =>
    have hj : j ≠ i := by
      intro e
      exact kept (e ▸ List.mem_cons_self)
    exact ⟨reports, rfl, left.onReceiver_ne hj _⟩
  | _ => exact ⟨reports, rfl, left⟩

theorem Shut.left (h : Shut m) {i : Nat} {reports : List Diagnostic}
    (left : Left i reports m.watcher.diagnostics) {later : List (Deed H L)}
    (steps : Steps m later m') (kept : .dropped i ∉ later) :
    ∃ rest, reports = taken i later ++ rest ∧ Left i rest m'.watcher.diagnostics := by
  induction steps generalizing reports with
  | rest => exact ⟨reports, rfl, left⟩
  | step first _ ih =>
    rw [List.mem_append, not_or] at kept
    obtain ⟨middle, rfl, left'⟩ := h.step_left left first kept.1
    obtain ⟨rest, rfl, left''⟩ := ih (h.step first) left' kept.2
    exact ⟨rest, by rw [taken_append, List.append_assoc], left''⟩

section

variable {env : Surroundings H L σ} {here : Focus σ (Monitor H L)} {s : σ}

theorem Shut.isIdle (h : Shut (here.get s)) {a : Cycle.Act H L}
    (place : a.InPlace (here.within watcherFocus) s) : a.IsIdle := by
  cases a with
  | capture id watch result =>
    have there : (here.get s).watcher.watch? id = some watch := place
    rw [h.watch?] at there
    cases there
  | dispatch id event =>
    have there : (here.get s).watcher.isWatching id = true := place
    rw [h.isWatching] at there
    cases there
  | call file b event =>
    have there : (here.get s).watcher.bindings.holds file b.number = true := place
    rw [Bindings.holds, h.bindings_of] at there
    cases there
  | _ => trivial

theorem Shut.add (h : Shut (here.get s)) (file : H) (recursive : Bool) :
    add env here file recursive s = (.error .closed, s) :=
  if_pos h.closed

end

end Monitor

end PathWatch
