import PathWatch.Proofs.Capture.Frame
import PathWatch.Proofs.Cycle.Acts
import PathWatch.Proofs.Watcher.Evolution

/-! A poll whose watch was removed or replaced meanwhile comes to nothing,
whatever handles and listeners ask of the watcher from inside their calls. -/
namespace PathWatch.Cycle

variable {H L σ : Type} {env : Surroundings H L σ} {here : Focus σ (Watcher H L)}
  {log : σ → List (FileId × Watch H)}

variable (here log) in
def Requested (s t : σ) : Prop :=
  ∃ given, log t = log s ++ given ∧ Evolves (here.get s) given (here.get t)

theorem Requested.refl (s : σ) : Requested here log s s := ⟨[], (List.append_nil _).symm, .rest⟩

theorem Requested.trans {s t u : σ} (h : Requested here log s t) (h' : Requested here log t u) :
    Requested here log s u := by
  obtain ⟨given, hl, he⟩ := h
  obtain ⟨later, hl', he'⟩ := h'
  refine ⟨given ++ later, ?_, he.trans he'⟩
  rw [hl', hl, List.append_assoc]

variable (env here log) in
/-- Handles and listeners act on the watcher by requests only, and the log keeps track of them. -/
structure Ledger : Prop where
  set : ∀ w s, log (here.set w s) = log s
  isPresent : ∀ h s, Requested here log s (env.isPresent h s).2
  modified : ∀ h s, Requested here log s (env.modified h s).2
  isFolder : ∀ h s, Requested here log s (env.isFolder h s).2
  size : ∀ h s, Requested here log s (env.size h s).2
  children : ∀ h s, Requested here log s (env.children h s).2
  call : ∀ l e s, Requested here log s (env.call l e s).2

variable (env here log) in
/-- The states that a watcher can come to, with the polls that were made on the way. -/
inductive Run : List (FileId × Nat) → σ → Prop
  | start {s : σ} (delay : Duration) (checks : Nat) (slow : Duration) (capacity : Nat)
      (new : here.get s = .new delay checks slow capacity) (unused : log s = []) : Run [] s
  | between {polls : List (FileId × Nat)} {s t : σ} (run : Run polls s)
      (step : Requested here log s t) : Run polls t
  | poll {polls : List (FileId × Nat)} {s : σ} (run : Run polls s) {id : FileId} {x : Watch H}
      (watched : (here.get s).watch? id = some x) (c : Counts) :
      Run (polls ++ [(id, x.serial)]) (poll env here id c s).2
  | finish {polls : List (FileId × Nat)} {s : σ} (run : Run polls s) :
      Run polls (here.update (fun w => { w with cycles := w.cycles + 1 }) s)

namespace Ledger

variable (ledger : Ledger env here log)
include ledger

theorem within : env.toQueries.Within (Requested here log) where
  refl := .refl
  trans := .trans
  isPresent := ledger.isPresent
  modified := ledger.modified
  isFolder := ledger.isFolder
  size := ledger.size
  children := ledger.children

theorem report (d : Diagnostic) (s : σ) : Requested here log s (emit here d s) := by
  refine ⟨[], ?_, ?_⟩
  · rw [List.append_nil]
    exact ledger.set _ _
  · have asked := Evolves.single (.onDiagnostics (·.emit d)) (here.get s)
    rw [emit, here.get_update]
    exact asked

theorem apply_cases {id : FileId} {serial : Nat} {a : Act H L} (ha : a.IsPoll id serial) (s : σ) :
    Requested here log s (a.apply env here s) ∨ ∃ snapshot, a = .store id serial snapshot := by
  cases a with
  | capture => exact .inl (Capture.visit_within ledger.within _ _ _ _ _)
  | report d => exact .inl (ledger.report d s)
  | dispatch => exact .inl (.refl s)
  | call _ b e => exact .inl (ledger.call _ _ _)
  | store j n snapshot =>
    obtain ⟨rfl, rfl⟩ := ha
    exact .inr ⟨snapshot, rfl⟩
  | finish => exact ha.elim

theorem log_store (id : FileId) (serial : Nat) (snapshot : Snapshot) (s : σ) :
    log ((Act.store id serial snapshot : Act H L).apply env here s) = log s :=
  ledger.set _ _

variable {id : FileId} {serial : Nat} {acts : List (Act H L)}

theorem sound_replay (ha : ∀ a ∈ acts, a.IsPoll id serial) {polls : List (FileId × Nat)}
    (hp : (id, serial) ∈ polls) {s : σ} (h : Sound (log s) polls (here.get s)) :
    Sound (log (replay env here acts s)) polls (here.get (replay env here acts s)) := by
  refine replay_induction (motive := fun t => Sound (log t) polls (here.get t)) h ?_
  intro a hm t ht
  rcases ledger.apply_cases (ha a hm) t with ⟨given, hl, he⟩ | ⟨snapshot, rfl⟩
  · rw [hl]
    exact ht.evolves he
  · have stored := ht.store hp snapshot
    rw [ledger.log_store]
    rwa [Act.apply, here.get_update]

theorem stale_replay (ha : ∀ a ∈ acts, a.IsPoll id serial) {s : σ}
    (h : Stale id serial (here.get s)) : Stale id serial (here.get (replay env here acts s)) := by
  refine replay_induction (motive := fun t => Stale id serial (here.get t)) h ?_
  intro a hm t ht
  rcases ledger.apply_cases (ha a hm) t with ⟨given, _, he⟩ | ⟨snapshot, rfl⟩
  · exact ht.evolves he
  · have stored := ht.store id serial snapshot
    rwa [Act.apply, here.get_update]

theorem serial_replay (ha : ∀ a ∈ acts, a.IsPoll id serial) (s : σ) :
    (here.get s).serial ≤ (here.get (replay env here acts s)).serial := by
  refine replay_induction (motive := fun t => (here.get s).serial ≤ (here.get t).serial)
    (Nat.le_refl _) ?_
  intro a hm t ht
  rcases ledger.apply_cases (ha a hm) t with ⟨given, _, he⟩ | ⟨snapshot, rfl⟩
  · have total := he.serial
    omega
  · have same := ((here.get t).store_frame id serial snapshot).2.2
    rwa [Act.apply, here.get_update, same]

theorem watch?_replay (ha : ∀ a ∈ acts, a.IsPoll id serial) (s : σ) :
    ∃ given, log (replay env here acts s) = log s ++ given ∧
      ∀ k y, (here.get (replay env here acts s)).watch? k = some y →
        (k = id ∧ y.serial = serial) ∨ (here.get s).watch? k = some y ∨ (k, y) ∈ given := by
  refine replay_induction (motive := fun t => ∃ given, log t = log s ++ given ∧ ∀ k y,
    (here.get t).watch? k = some y →
      (k = id ∧ y.serial = serial) ∨ (here.get s).watch? k = some y ∨ (k, y) ∈ given)
    ⟨[], (List.append_nil _).symm, fun k y hy => .inr (.inl hy)⟩ ?_
  intro a hm t ht
  obtain ⟨given, hl, hw⟩ := ht
  rcases ledger.apply_cases (ha a hm) t with ⟨later, hl', he⟩ | ⟨snapshot, rfl⟩
  · refine ⟨given ++ later, by rw [hl', hl, List.append_assoc], ?_⟩
    intro k y hy
    rcases he.watch? hy with before | new
    · rcases hw k y before with polled | kept | new
      · exact .inl polled
      · exact .inr (.inl kept)
      · exact .inr (.inr (List.mem_append_left _ new))
    · exact .inr (.inr (List.mem_append_right _ new))
  · refine ⟨given, by rw [ledger.log_store, hl], ?_⟩
    intro k y hy
    rw [Act.apply, here.get_update, Watcher.watch?_store] at hy
    split at hy
    · next e =>
      subst e
      obtain ⟨x, hx, rfl⟩ := Option.map_eq_some_iff.1 hy
      by_cases hs : x.serial = serial
      · exact .inl ⟨rfl, (x.stored_serial serial snapshot).trans hs⟩
      · rw [Watch.stored_of_ne _ hs]
        exact hw k x hx
    · exact hw k y hy

end Ledger

variable (here) in
def Guarded (id : FileId) (serial : Nat) (s : σ) : Act H L → Prop
  | .dispatch j _ => j = id ∧ (here.get s).isCurrent id serial = true
  | _ => True

theorem guarded_callActs {id file : FileId} {serial : Nat} {event : ChangeEvent}
    {bs : List (Binding L)} {s t : σ} :
    Throughout env here (Guarded here id serial) (callActs env here file event bs s) t := by
  apply throughout_of_forall
  intro a ha t
  have call := isCall_of_mem_callActs env here ha
  cases a with
  | dispatch => exact call.elim
  | _ => trivial

theorem guarded_deliverActs {id : FileId} {serial : Nat} (es : List ChangeEvent) {s : σ} :
    Throughout env here (Guarded here id serial) (deliverActs env here id serial es s) s := by
  induction es generalizing s with
  | nil => trivial
  | cons e es ih =>
    simp only [deliverActs]
    split
    · next current =>
      apply throughout_append.2
      exact ⟨⟨⟨rfl, current⟩, guarded_callActs⟩, ih⟩
    · trivial

theorem guarded_settleActs {id : FileId} {watch : Watch H} {v : Visit σ} :
    Throughout env here (Guarded here id watch.serial) (settleActs env here id watch v) v.after := by
  rw [settleActs]
  split
  · exact ⟨trivial, trivial⟩
  · have reports {t : σ} : Throughout env here (Guarded here id watch.serial)
        (failureActs v.failures : List (Act H L)) t := by
      apply throughout_of_forall
      intro a ha t
      obtain ⟨f, _, rfl⟩ := List.mem_map.1 ha
      trivial
    apply throughout_append.2
    refine ⟨throughout_append.2 ⟨reports, ?_⟩, trivial, trivial⟩
    exact guarded_deliverActs _

variable (env) in
theorem guarded_pollActs {id : FileId} {x : Watch H} {s : σ}
    (hx : (here.get s).watch? id = some x) :
    Throughout env here (Guarded here id x.serial) (pollActs env here id s) s := by
  simp only [pollActs, hx]
  apply throughout_append.2
  rw [replay_captureActs]
  refine ⟨?_, guarded_settleActs⟩
  rw [captureActs]
  dsimp only
  split
  · exact ⟨trivial, trivial, trivial⟩
  · exact ⟨trivial, trivial⟩

theorem Run.sound (ledger : Ledger env here log) {polls : List (FileId × Nat)} {s : σ}
    (run : Run env here log polls s) : Sound (log s) polls (here.get s) := by
  induction run with
  | start delay checks slow capacity new unused =>
    rw [new, unused]
    exact .new delay checks slow capacity
  | between _ step ih =>
    obtain ⟨given, hl, he⟩ := step
    rw [hl]
    exact ih.evolves he
  | @poll polls s _ id x watched c ih =>
    have acts : ∀ a ∈ pollActs env here id s, a.IsPoll id x.serial :=
      fun a => isPoll_of_mem_pollActs env here watched
    rw [← replay_pollActs]
    apply ledger.sound_replay acts
    · exact List.mem_append_right _ (List.mem_singleton.2 rfl)
    · exact ih.polled _
  | @finish polls s _ ih =>
    rw [Focus.update, ledger.set, here.get_set]
    exact ⟨ih.increasing, ih.bounded, ih.origin⟩

theorem Run.round {polls : List (FileId × Nat)} {s : σ} (run : Run env here log polls s)
    (ids : List FileId) : ∃ polls', Run env here log polls' (runInOrder env here ids s).2 := by
  have each (c : Counts) : ∃ polls', Run env here log polls' (pollEach env here ids c s).2 := by
    induction ids generalizing polls s c with
    | nil => exact ⟨polls, run⟩
    | cons id ids ih =>
      simp only [pollEach]
      split
      · exact ⟨polls, run⟩
      · cases hx : (here.get s).watch? id with
        | none =>
          have skipped : Cycle.poll env here id c s = (c, s) := by simp [Cycle.poll, hx]
          rw [skipped]
          exact ih run c
        | some x => exact ih (run.poll hx c) _
  obtain ⟨polls', last⟩ := each {}
  exact ⟨polls', last.finish⟩

section

variable {id : FileId} {x : Watch H} {s : σ} (hx : (here.get s).watch? id = some x)
include hx

theorem dispatched_current {pre post : List (Act H L)} {j : FileId} {event : ChangeEvent}
    (h : pollActs env here id s = pre ++ .dispatch j event :: post) :
    j = id ∧ (here.get (replay env here pre s)).isCurrent id x.serial = true := by
  have guarded := guarded_pollActs env hx
  rw [h] at guarded
  exact guarded.at

theorem Ledger.nothing_dispatched (ledger : Ledger env here log)
    (bound : x.serial ≤ (here.get s).serial) {pre post : List (Act H L)}
    (h : pollActs env here id s = pre ++ post)
    (gone : (here.get (replay env here pre s)).isCurrent id x.serial = false) (j : FileId)
    (event : ChangeEvent) : .dispatch j event ∉ post := by
  intro hm
  obtain ⟨between, post', rfl⟩ := List.append_of_mem hm
  rw [← List.append_assoc] at h
  have isPoll : ∀ a ∈ pre ++ between, a.IsPoll id x.serial := by
    intro a ha
    apply isPoll_of_mem_pollActs env here hx
    rw [h]
    exact List.mem_append_left _ ha
  obtain ⟨isPre, isBetween⟩ := List.forall_mem_append.1 isPoll
  have handed := ledger.serial_replay isPre s
  have stale : Stale id x.serial (here.get (replay env here pre s)) := ⟨by omega, gone⟩
  have later := ledger.stale_replay isBetween stale
  have current := (dispatched_current hx h).2
  rw [replay_append, later.2] at current
  cases current

theorem stored_current {pre post : List (Act H L)} {j : FileId} {serial : Nat} {snapshot : Snapshot}
    (h : pollActs env here id s = pre ++ .store j serial snapshot :: post) :
    j = id ∧ serial = x.serial ∧
      ((here.get (replay env here pre s)).isCurrent id x.serial = false →
        here.get (replay env here (pre ++ [.store j serial snapshot]) s) =
          here.get (replay env here pre s)) := by
  have store : .store j serial snapshot ∈ pollActs env here id s := by
    rw [h]
    exact List.mem_append_right _ List.mem_cons_self
  obtain ⟨rfl, rfl⟩ := isPoll_of_mem_pollActs env here hx store
  refine ⟨rfl, rfl, ?_⟩
  intro gone
  rw [replay_append]
  refine Eq.trans (here.get_update _ _) ?_
  exact Watcher.store_of_not_current gone snapshot

end

/-- Once its watch is gone a poll dispatches nothing more and writes nothing, and a watch put in
place meanwhile stays as it was put in until a poll of its own. -/
theorem stale_poll_discarded (ledger : Ledger env here log) {polls : List (FileId × Nat)} {s : σ}
    (run : Run env here log polls s) {id : FileId} {x : Watch H}
    (hx : (here.get s).watch? id = some x) (c : Counts) :
    let acts := pollActs env here id s
    let after := (poll env here id c s).2
    replay env here acts s = after ∧
    (∀ pre j event post, acts = pre ++ .dispatch j event :: post →
      j = id ∧ (here.get (replay env here pre s)).isCurrent id x.serial = true) ∧
    (∀ pre post, acts = pre ++ post →
      (here.get (replay env here pre s)).isCurrent id x.serial = false →
      ∀ j event, .dispatch j event ∉ post) ∧
    (∀ pre j serial snapshot post, acts = pre ++ .store j serial snapshot :: post →
      j = id ∧ serial = x.serial ∧
      ((here.get (replay env here pre s)).isCurrent id x.serial = false →
        here.get (replay env here (pre ++ [.store j serial snapshot]) s) =
          here.get (replay env here pre s))) ∧
    (∃ given, log after = log s ++ given ∧ ∀ k y, (here.get after).watch? k = some y →
      (k = id ∧ y.serial = x.serial) ∨ (here.get s).watch? k = some y ∨ (k, y) ∈ given) ∧
    (log after).Pairwise (fun p q => p.2.serial < q.2.serial) ∧
    ∀ k y, (here.get after).watch? k = some y → (k, y.serial) ∉ polls ++ [(id, x.serial)] →
      (k, y) ∈ log after := by
  intro acts after
  have replayed : replay env here acts s = after := replay_pollActs env here id c s
  have before := run.sound ledger
  have sound := (run.poll hx c).sound ledger
  refine ⟨replayed, ?_, ?_, ?_, ?_, sound.increasing, ?_⟩
  · intro pre j event post h
    exact dispatched_current hx h
  · intro pre post h gone
    exact ledger.nothing_dispatched hx (before.serial_le hx) h gone
  · intro pre j serial snapshot post h
    exact stored_current hx h
  · have found := ledger.watch?_replay (fun a => isPoll_of_mem_pollActs env here hx) s
    rwa [replay_pollActs env here id c] at found
  · intro k y hy unpolled
    obtain ⟨b, hb, _, fresh⟩ := sound.origin k y hy
    rw [fresh unpolled]
    exact hb

abbrev Logged := Watcher FileId Unit × List (FileId × Watch FileId)

def loggedWatcher : Focus Logged (Watcher FileId Unit) where
  get s := s.1
  set w s := (w, s.2)
  get_set _ _ := rfl
  set_get _ := rfl
  set_set _ _ _ := rfl

def asked (r : Request FileId Unit) (s : Logged) : Logged := (r.apply s.1, s.2 ++ r.given s.1)

theorem requested_asked (r : Request FileId Unit) (s : Logged) :
    Requested loggedWatcher Prod.snd s (asked r s) :=
  ⟨r.given s.1, rfl, .single r s.1⟩

def replacing : Surroundings FileId Unit Logged where
  id file := file
  name file := file.text
  isPresent _ s := (.ok true, s)
  modified _ s := (.ok (.ofMillis 0), s)
  isFolder file s := (.ok (file.text == "a"), s)
  size _ s := (.ok 0, s)
  children _ s := (.ok [⟨"b"⟩, ⟨"c"⟩], s)
  call _ _ s := (.accepted,
    asked (.insert ⟨"a"⟩ ⟨"a"⟩ true (some (.missing ⟨"a"⟩))) (asked (.remove ⟨"a"⟩) s))
  clock _ := ⟨0⟩
  depth _ := 2

theorem ledger_replacing : Ledger replacing loggedWatcher Prod.snd where
  set _ _ := rfl
  isPresent _ := .refl
  modified _ := .refl
  isFolder _ := .refl
  size _ := .refl
  children _ := .refl
  call _ _ s := (requested_asked _ s).trans (requested_asked _ _)

def replacingStart : Logged :=
  let folder := Snapshot.folder ⟨"a"⟩ (.ofMillis 0) []
  asked (.bind ⟨"a"⟩ ()) (asked (.insert ⟨"a"⟩ ⟨"a"⟩ true (some folder)) (.new ⟨0⟩ 0 ⟨1⟩ 1, []))

theorem run_replacing : Run replacing loggedWatcher Prod.snd [] replacingStart := by
  have new : Run replacing loggedWatcher Prod.snd [] (.new ⟨0⟩ 0 ⟨1⟩ 1, []) :=
    .start ⟨0⟩ 0 ⟨1⟩ 1 rfl rfl
  exact (new.between (requested_asked _ _)).between (requested_asked (.bind ⟨"a"⟩ ()) _)

theorem replaced_watch_keeps_baseline :
    (∀ j event, .dispatch j event ∉ (pollActs replacing loggedWatcher ⟨"a"⟩ replacingStart).drop 3) ∧
      (⟨"a"⟩, ⟨⟨"a"⟩, true, some (.missing ⟨"a"⟩), 2⟩) ∈
        (poll replacing loggedWatcher ⟨"a"⟩ {} replacingStart).2.2 := by
  have watched : replacingStart.1.watch? ⟨"a"⟩ =
    some ⟨⟨"a"⟩, true, some (.folder ⟨"a"⟩ (.ofMillis 0) []), 1⟩ := rfl
  obtain ⟨_, _, dropped, _, _, _, kept⟩ :=
    stale_poll_discarded ledger_replacing run_replacing watched {}
  constructor
  · apply dropped _ _ (List.take_append_drop 3 _).symm
    rfl
  · apply kept
    · rfl
    · decide

end PathWatch.Cycle
