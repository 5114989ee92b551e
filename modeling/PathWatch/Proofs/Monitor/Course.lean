import PathWatch.Proofs.Monitor.Closing
import PathWatch.Proofs.Monitor.Listeners

/-! A course of events from a new monitor on, with a log of what was done. All
that happens comes down to steps, also what handles and listeners do in the
middle of a capture or of a round, so at any moment the log tells which listeners
a watched path has. -/
namespace PathWatch.Monitor

variable {H L σ : Type} {env : Surroundings H L σ} {here : Focus σ (Monitor H L)}
  {log : σ → List (Deed H L)}

variable (here log) in
def Recorded (s t : σ) : Prop :=
  ∃ deeds, log t = log s ++ deeds ∧ Steps (here.get s) deeds (here.get t)

theorem Recorded.refl (s : σ) : Recorded here log s s := ⟨[], (List.append_nil _).symm, .rest⟩

theorem Recorded.trans {s t u : σ} (h : Recorded here log s t) (h' : Recorded here log t u) :
    Recorded here log s u := by
  obtain ⟨deeds, hl, hs⟩ := h
  obtain ⟨later, hl', hs'⟩ := h'
  exact ⟨deeds ++ later, by rw [hl', hl, List.append_assoc], hs.trans hs'⟩

theorem Recorded.led {s t : σ} (h : Recorded here log s t) : Led here s t := by
  obtain ⟨deeds, _, steps⟩ := h
  exact ⟨deeds, steps⟩

variable (env here log) in
/-- Handles and listeners act on the monitor by steps only, and the log keeps track of them. -/
structure Chronicle : Prop extends env.Within (Recorded here log) where
  set : ∀ m s, log (here.set m s) = log s

theorem Chronicle.confined (chronicle : Chronicle env here log) :
    Confined env here (Recorded here log) := by
  refine ⟨chronicle.toWithin, ?_⟩
  intro step s none
  refine ⟨[], ?_, ?_⟩
  · rw [List.append_nil]
    exact chronicle.set _ _
  · rw [here.get_update, ← none]
    exact .single step _

variable (env here) in
def entered (file : H) (recursive : Bool) (s : σ) : List (Deed H L) :=
  let m := here.get s
  if m.watcher.closed then []
  else if m.watcher.isWatching (env.id file) then []
  else
    let (baseline, s) := baseline env here file recursive s
    Step.deeds (.register (env.id file) file recursive baseline) (here.get s)

theorem Chronicle.added (chronicle : Chronicle env here log) {file : H} {recursive : Bool} {s t : σ}
    (same : here.get t = here.get (add env here file recursive s).2)
    (noted : log t = log (add env here file recursive s).2 ++ entered env here file recursive s) :
    Recorded here log s t := by
  have stays (h : add env here file recursive s = (.error .closed, s) ∨
      add env here file recursive s = (.ok (), s))
      (none : entered env here file recursive s = []) : Recorded here log s t := by
    have still : (add env here file recursive s).2 = s := by
      rcases h with h | h <;> rw [h]
    rw [still] at same noted
    rw [none] at noted
    exact ⟨[], noted, same ▸ .rest⟩
  cases opened : (here.get s).watcher.closed with
  | true => exact stays (.inl (if_pos opened)) (if_pos opened)
  | false =>
    cases unwatched : (here.get s).watcher.isWatching (env.id file) with
    | true => exact stays (.inr (by simp [add, opened, unwatched])) (by simp [entered, unwatched])
    | false =>
      have captured := chronicle.confined.baseline file recursive s
      have put := add_eq env here opened unwatched recursive
      have deeds : entered env here file recursive s =
          (Step.register (env.id file) file recursive (baseline env here file recursive s).1).deeds
            (here.get (baseline env here file recursive s).2) := by
        simp only [entered, opened, unwatched, Bool.false_eq_true, if_false]
      rw [put, Focus.step, here.get_set] at same
      rw [put, deeds, Focus.step, chronicle.set] at noted
      refine captured.trans ⟨_, noted, ?_⟩
      rw [same]
      exact .single (.register (env.id file) file recursive _) _

variable (env here log) in
/-- What can be done with a monitor: steps are taken, paths are added, and rounds are run over
paths in whichever order. Each act of a round leads to a moment in the middle of it. -/
inductive Course (s : σ) : σ → Prop
  | start : Course s s
  | asked {t u : σ} (course : Course s t) (steps : Recorded here log t u) : Course s u
  | added {t u : σ} (course : Course s t) (file : H) (recursive : Bool)
      (same : here.get u = here.get (add env here file recursive t).2)
      (noted : log u = log (add env here file recursive t).2 ++ entered env here file recursive t) :
      Course s u
  | round {t : σ} (course : Course s t) (ids : List FileId) :
      Course s (Cycle.runInOrder env (here.within watcherFocus) ids t).2
  | during {t : σ} (course : Course s t) (ids : List FileId) (pre post : List (Cycle.Act H L))
      (split : Cycle.roundActs env (here.within watcherFocus) ids t = pre ++ post) :
      Course s (Cycle.replay env (here.within watcherFocus) pre t)

theorem Course.recorded (chronicle : Chronicle env here log) {s t : σ}
    (course : Course env here log s t) : Recorded here log s t := by
  induction course with
  | start => exact .refl s
  | asked _ steps ih => exact ih.trans steps
  | added _ file recursive same noted ih => exact ih.trans (chronicle.added same noted)
  | round _ ids ih => exact ih.trans (chronicle.confined.round ids _)
  | during _ ids pre post _ ih => exact ih.trans (chronicle.confined.replay pre _)

theorem Unshut.of_watching {m : Monitor H L} (h : Reached m) {id : FileId}
    (watching : m.watcher.isWatching id = true) : Unshut m := by
  rcases h.unshut_or_shut with still | shut
  · exact still
  · rw [shut.isWatching] at watching
    cases watching

/-- At any moment `m`, also in the middle of a round or a capture, only paths that are watched have
listeners: the monitor's own, then those added since the path was and not taken away. A watch stays
as it was put in place, but for its last snapshot, and to add its path once more changes nothing. -/
theorem listeners_in_step (chronicle : Chronicle env here log) {listener : Option L}
    {config : Config} {s t : σ} (fresh : here.get s = new listener config) (unused : log s = [])
    (course : Course env here log s t) {deeds : List (Deed H L)} {m : Monitor H L}
    (meanwhile : Steps (here.get t) deeds m) (proper : Proper (log t ++ deeds)) :
    (∀ id, m.watcher.bindings.isBound id = true → m.watcher.isWatching id = true) ∧
    (∀ id w, m.watcher.watch? id = some w → ∃ before first since own,
      log t ++ deeds = before ++ .added id first :: since ∧ (∀ d ∈ since, ¬ d.Turns id) ∧
      { w with last := first.last } = first ∧ own.map Binding.listener = listener.toList ∧
      m.watcher.bindings.of id = own ++ extras id since) ∧
    (∀ id file recursive baseline, m.watcher.isWatching id = true →
      m.register id file recursive baseline = (.ok (), m)) ∧
    ∀ file recursive, (here.get t).watcher.isWatching (env.id file) = true →
      add env here file recursive t = (.ok (), t) := by
  have recorded := course.recorded chronicle
  have reached : Reached (here.get t) := ⟨listener, config, fresh ▸ recorded.led⟩
  obtain ⟨past, hl, steps⟩ := recorded
  rw [fresh] at steps
  rw [unused, List.nil_append] at hl
  have now : InStep listener (log t) (here.get t) := by
    rw [hl] at proper ⊢
    exact (InStep.new listener config).steps steps proper.before
  have later := now.steps meanwhile proper
  refine ⟨later.watched, ?_, ?_, ?_⟩
  · intro id w hw
    obtain ⟨since, own, attended⟩ := later.attended id w hw
    obtain ⟨before, first, split, same⟩ := attended.added
    exact ⟨before, first, since, own, split, attended.steady, same, attended.default,
      attended.bindings⟩
  · intro id file recursive baseline watching
    have still := Unshut.of_watching (reached.follows ⟨deeds, meanwhile⟩) watching
    simp [register, still.closed, watching]
  · intro file recursive watching
    have still := Unshut.of_watching reached watching
    simp [add, still.closed, watching]

abbrev Chronicled := Monitor FileId Nat × List (Deed FileId Nat)

def chronicled : Focus Chronicled (Monitor FileId Nat) where
  get s := s.1
  set m s := (m, s.2)
  get_set _ _ := rfl
  set_get _ := rfl
  set_set _ _ _ := rfl

def take (steps : List (Step FileId Nat)) (s : Chronicled) : Chronicled :=
  steps.foldl (fun s step => (step.apply s.1, s.2 ++ step.deeds s.1)) s

theorem recorded_take (steps : List (Step FileId Nat)) (s : Chronicled) :
    Recorded chronicled Prod.snd s (take steps s) := by
  induction steps generalizing s with
  | nil => exact .refl s
  | cons step steps ih =>
    have first : Recorded chronicled Prod.snd s (step.apply s.1, s.2 ++ step.deeds s.1) :=
      ⟨step.deeds s.1, rfl, .single step s.1⟩
    exact first.trans (ih _)

/-- The first question about a path adds it from inside its own addition, and gives it a listener.
The monitor's own listener adds another one, and this one takes itself away. -/
def nesting : Surroundings FileId Nat Chronicled where
  id file := file
  name file := file.text
  isPresent file s := (.ok true, if s.1.watcher.isWatching file then s else
    take [.register file file false (some (.missing file)), .addListener file 1] s)
  modified _ s := (.ok (.ofMillis 0), s)
  isFolder _ s := (.ok false, s)
  size _ s := (.ok 0, s)
  children _ s := (.ok [], s)
  call l e s := (.accepted, take
    [if l = 0 then .addListener e.file 2 else .removeListener e.file 2] s)
  clock _ := ⟨0⟩
  depth _ := 1

theorem chronicle_nesting : Chronicle nesting chronicled Prod.snd where
  refl := .refl
  trans := .trans
  isPresent file s := by
    simp only [nesting]
    split
    · exact .refl s
    · exact recorded_take _ s
  modified _ := .refl
  isFolder _ := .refl
  size _ := .refl
  children _ := .refl
  call _ _ s := recorded_take _ s
  set _ _ := rfl

def unadded : Chronicled := (new (some 0) {}, [])

def nestedAddition : Chronicled := (add nesting chronicled ⟨"a"⟩ true unadded).2

def nestedRound : Chronicled :=
  (Cycle.runInOrder nesting (chronicled.within watcherFocus) [⟨"a"⟩] nestedAddition).2

def nestedDeeds : List (Deed FileId Nat) :=
  [.bound ⟨"a"⟩ ⟨2, 1⟩, .bound ⟨"a"⟩ ⟨3, 2⟩, .unbound ⟨"a"⟩ 2]

theorem proper_nested (d : Deed FileId Nat) (h : ∀ id number, d ≠ .unbound id number) :
    Proper (d :: nestedDeeds) := by
  have first : Proper [d, .bound ⟨"a"⟩ ⟨2, 1⟩, .bound ⟨"a"⟩ ⟨3, 2⟩] := by
    intro before id number after split
    have mem : .unbound id number ∈ before ++ .unbound id number :: after := by simp
    rw [← split] at mem
    simp [Ne.symm (h id number)] at mem
  refine first.snoc (d := .unbound ⟨"a"⟩ 2) ?_
  intro id number same
  cases same
  exact ⟨⟨"a"⟩, 1, by simp⟩

theorem nested_listeners_in_step :
    (∀ id, nestedRound.1.watcher.bindings.isBound id = true →
      nestedRound.1.watcher.isWatching id = true) ∧
    (∃ own, own.map Binding.listener = [0] ∧
      nestedRound.1.watcher.bindings.of ⟨"a"⟩ = own ++ [⟨3, 2⟩]) ∧
    add nesting chronicled ⟨"a"⟩ true nestedRound = (.ok (), nestedRound) := by
  have none : entered nesting chronicled ⟨"a"⟩ true unadded = [] := rfl
  have added : Course nesting chronicled Prod.snd unadded nestedAddition :=
    .added .start ⟨"a"⟩ true rfl (by rw [none, List.append_nil]; rfl)
  have log : nestedRound.2 ++ [] =
    .added ⟨"a"⟩ ⟨⟨"a"⟩, false, some (.missing ⟨"a"⟩), 1⟩ :: nestedDeeds := rfl
  have proper : Proper (nestedRound.2 ++ []) := by
    rw [log]
    exact proper_nested _ nofun
  obtain ⟨watched, attended, _, again⟩ :=
    listeners_in_step chronicle_nesting rfl rfl (added.round [⟨"a"⟩]) .rest proper
  refine ⟨watched, ?_, again ⟨"a"⟩ true rfl⟩
  obtain ⟨before, first, since, own, split, _, _, default, bindings⟩ := attended ⟨"a"⟩ _ rfl
  refine ⟨own, default, bindings.trans ?_⟩
  have split := log.symm.trans split
  have last : since = nestedDeeds := by
    rcases List.cons_eq_append_iff.1 split with ⟨_, same⟩ | ⟨before', _, rest⟩
    · exact (List.cons.inj same).2
    · have mem : .added ⟨"a"⟩ first ∈ before' ++ .added ⟨"a"⟩ first :: since := by simp
      rw [← rest] at mem
      simp [nestedDeeds] at mem
  rw [last]
  rfl

end PathWatch.Monitor
