import PathWatch.Proofs.Memory.Outage
import PathWatch.Proofs.Monitor.Listeners
import PathWatch.Proofs.Watcher.Evolution

/-! What is there when a path is added to a monitor is not new. A listener hears
of it as created all the same if every capture so far has missed it: what lies at
or below a failing path is left out of a capture that has nothing known to put in
its place. -/
namespace PathWatch.Memory

open Snapshot PathWatch.Cycle

variable {L ρ : Type}

structure Manner (L ρ : Type) where
  listener : Option L
  recursive : Bool
  phase : Phase
  due : Nat
  rest : ρ

def World.onMonitor : Focus (World L (Manner L ρ)) (Monitor Path L) where
  get w := ⟨w.watcher, w.rest.listener, w.rest.recursive, w.rest.phase, w.rest.due⟩
  set m w := ⟨w.journal, m.watcher, ⟨m.listener, m.recursive, m.phase, m.due, w.rest.rest⟩⟩
  get_set _ _ := rfl
  set_get _ := rfl
  set_set _ _ _ := rfl

theorem World.within_onMonitor :
    (onMonitor : Focus (World L (Manner L ρ)) _).within Monitor.watcherFocus = onWatcher := rfl

def Onward (v w : World L ρ) : Prop :=
  (∃ given, Evolves v.watcher given w.watcher) ∧ v.journal <+: w.journal

theorem Onward.refl (w : World L ρ) : Onward w w := ⟨⟨[], .rest⟩, List.prefix_rfl⟩

theorem Onward.trans {u v w : World L ρ} (h : Onward u v) (h' : Onward v w) : Onward u w := by
  obtain ⟨⟨given, first⟩, before⟩ := h
  obtain ⟨⟨later, next⟩, after⟩ := h'
  exact ⟨⟨given ++ later, first.trans next⟩, before.trans after⟩

theorem Onward.report (d : Diagnostic) (w : World L ρ) : Onward w (emit World.onWatcher d w) :=
  ⟨⟨_, .single (.onDiagnostics (·.emit d)) w.watcher⟩, List.prefix_rfl⟩

theorem Onward.captureWatch (out : Outside L ρ) (id : FileId) (x : Watch Path) (w : World L ρ) :
    Onward w (captureWatch out.env World.onWatcher id x w).after := by
  have still : (visitOf out.env x w).after = w := visit_after _ _ _ _ _ _
  rw [captureWatch_eq]
  dsimp only
  split
  · rw [still]
    exact .report _ w
  · rw [still]
    exact .refl w

def Outside.Lawful (out : Outside L ρ) : Prop := ∀ l e w, Onward w (out.call l e w).2

section

variable {out : Outside L ρ} (lawful : out.Lawful)
include lawful

theorem Outside.Lawful.delivery {id : FileId} {acts : List (Act Path L)}
    (h : ∀ a ∈ acts, a.IsDelivery id) (w : World L ρ) :
    Onward w (replay out.env World.onWatcher acts w) := by
  refine replay_induction (motive := Onward w) (.refl w) ?_
  intro a ha v hv
  refine hv.trans ?_
  have delivery := h a ha
  cases a with
  | report d => exact .report d v
  | dispatch => exact .refl v
  | call _ b e => exact lawful b.listener e v
  | _ => exact delivery.elim

theorem Outside.Lawful.poll {id : FileId} {x : Watch Path} {w : World L ρ}
    (hx : w.watcher.watch? id = some x) (c : Counts) : ∃ u, Onward w u ∧
      (poll out.env World.onWatcher id c w).2 =
        match (visitOf out.env x w).result with
        | .error _ => u
        | .ok snapshot => World.onWatcher.update (·.store id x.serial snapshot) u := by
  have captured := Onward.captureWatch out id x w
  have result := captureWatch_result out.env World.onWatcher id x w
  have polled : Cycle.poll out.env World.onWatcher id c w = settle out.env World.onWatcher id x
      (Cycle.captureWatch out.env World.onWatcher id x w) c := by
    have hx' : (World.onWatcher.get w).watch? id = some x := hx
    rw [Cycle.poll, hx']
  rw [polled, settle, result]
  generalize Cycle.captureWatch out.env World.onWatcher id x w = v at captured
  cases (visitOf out.env x w).result with
  | error e => exact ⟨_, captured.trans (.report _ _), rfl⟩
  | ok snapshot =>
    have told : Onward v.after (emitFailures World.onWatcher v.failures v.after) := by
      have acts : ∀ a ∈ (failureActs v.failures : List (Act Path L)), a.IsDelivery id := fun _ =>
        isDelivery_of_mem_failureActs
      rw [← replay_failureActs out.env]
      exact lawful.delivery acts _
    refine ⟨_, (captured.trans told).trans ?_, rfl⟩
    rw [← replay_deliverActs]
    exact lawful.delivery (fun a => isDelivery_of_mem_deliverActs _ _) _

end

theorem Outside.Lawful.poll_frame {out : Outside L ρ} (lawful : out.Lawful) {id : FileId}
    {x : Watch Path} {w : World L ρ} (hx : w.watcher.watch? id = some x) (c : Counts) :
    w.journal <+: (Cycle.poll out.env World.onWatcher id c w).2.journal ∧
      w.watcher.serial ≤ (Cycle.poll out.env World.onWatcher id c w).2.watcher.serial := by
  obtain ⟨u, ⟨⟨given, evolves⟩, later⟩, after⟩ := lawful.poll hx c
  have serial := evolves.serial
  rw [after]
  split
  · exact ⟨later, by omega⟩
  · next snapshot _ =>
    have stored := (u.watcher.store_frame id x.serial snapshot).2.2
    exact ⟨later, Nat.le_trans (by omega) (Nat.le_of_eq stored.symm)⟩

/-- What was there when the path was added has not been removed, neither itself nor with a folder
that it is in. -/
def Lasts (b : World L ρ) (q : Path) (w : World L ρ) : Prop :=
  b.store.contains q = true ∧
    ∃ ops, w.journal = b.journal ++ ops ∧ removed q ops b.store = false

theorem Lasts.contains {b w : World L ρ} {q : Path} (h : Lasts b q w) :
    w.store.contains q = true := by
  obtain ⟨there, ops, since, kept⟩ := h
  rw [World.store_of_journal since]
  exact Store.contains_run there kept

theorem Lasts.before {b v w : World L ρ} {q : Path} (h : Lasts b q w)
    (since : b.journal <+: v.journal) (later : v.journal <+: w.journal) : Lasts b q v := by
  obtain ⟨there, ops, whole, kept⟩ := h
  obtain ⟨first, hv⟩ := since
  obtain ⟨rest, hw⟩ := later
  have split : ops = first ++ rest := by
    have same : b.journal ++ ops = b.journal ++ (first ++ rest) := by
      rw [← whole, ← hw, ← hv, List.append_assoc]
    exact List.append_cancel_left same
  rw [split, Store.removed_append] at kept
  exact ⟨there, first, hv.symm, (Bool.or_eq_false_iff.1 kept).1⟩

/-- The moment counts if a capture of the path that is made at it succeeds. -/
def glimpse (p : Path) (w : World L ρ) : List (World L ρ) :=
  if p ∈ w.store.failing then [] else [w]

structure Knows (p : Path) (recursive : Bool) (b : World L ρ) (views : List (World L ρ))
    (x : Watch Path) (w : World L ρ) : Prop where
  file : x.file = p
  scope : x.recursive = recursive
  first : x.last = none ↔ views = []
  named : ∀ names t, x.last.bind (at? names) = some t →
    t.id = Path.id (p ++ names) ∧ Path.IsNormal (p ++ names)
  known : ∀ names, Lasts b (p ++ names) w → ((x.last.bind (at? names)).isSome ↔
    (recursive = true ∨ names = []) ∧ ∃ v ∈ views, ¬ Hidden v.store p (p ++ names))

theorem verdict_created {before after : Option Snapshot} {kept : Prop} {id : FileId} :
    Verdict before after kept (.created id) ↔ before = none ∧ ∃ t, after = some t ∧ t.id = id := by
  cases before with
  | none =>
    cases after with
    | none => simp [Verdict]
    | some t => simp [Verdict, ChangeEvent.created, eq_comm]
  | some s =>
    cases after <;>
      simp [Verdict, ChangeEvent.created, ChangeEvent.deleted, ChangeEvent.changed]

namespace Knows

variable {p : Path} {recursive : Bool} {b v w : World L ρ} {views : List (World L ρ)}
  {x : Watch Path}

theorem unseen (p : Path) (recursive : Bool) (b w : World L ρ) (serial : Nat) :
    Knows p recursive b [] ⟨p, recursive, none, serial⟩ w where
  file := rfl
  scope := rfl
  first := by simp
  named _ _ h := nomatch h
  known names _ := by simp

theorem onward (h : Knows p recursive b views x v) (since : b.journal <+: v.journal)
    (later : v.journal <+: w.journal) : Knows p recursive b views x w :=
  ⟨h.file, h.scope, h.first, h.named, fun names lasts => h.known names (lasts.before since later)⟩

theorem named_seen (h : Knows p recursive b views x w) {names : List String} {t : Snapshot}
    (ht : seen w.store p x.last names = some (facts t)) :
    t.id = Path.id (p ++ names) ∧ Path.IsNormal (p ++ names) := by
  rw [seen] at ht
  split at ht
  · obtain ⟨t', known, same⟩ := Option.map_eq_some_iff.1 ht
    have named := h.named names t' known
    rwa [Snapshot.id, same] at named
  · exact Store.facts?_id w.tree ht

theorem seen_iff (h : Knows p recursive b views x w) {names : List String}
    (scope : recursive = true ∨ names = []) (lasts : Lasts b (p ++ names) w) :
    (seen w.store p x.last names).isSome = true ↔
      ∃ v ∈ views ++ [w], ¬ Hidden v.store p (p ++ names) := by
  have known := h.known names lasts
  rw [and_iff_right scope] at known
  rw [seen]
  by_cases hidden : Hidden w.store p (p ++ names)
  · rw [if_pos hidden, Option.isSome_map, known]
    simp [hidden]
  · have there : (w.store.facts? (p ++ names)).isSome = true := by
      rw [Store.facts?, Option.isSome_map]
      exact lasts.contains
    rw [if_neg hidden]
    exact iff_of_true there ⟨w, by simp, hidden⟩

theorem look (h : Knows p recursive b views x w) (out : Outside L ρ) :
    Knows p recursive b (views ++ glimpse p w) (polled x (visitOf out.env x w).result) w := by
  rw [Outside.visitOf_eq h.file, glimpse]
  by_cases hf : p ∈ w.store.failing
  · rw [visit_failing hf, if_pos hf, List.append_nil]
    exact h
  obtain ⟨found, hr, shows⟩ := visit_shows w.tree x.recursive (deepEnough_height w.store p) hf x.last
  rw [hr, if_neg hf]
  have shown (names : List String) : (at? names found).map facts =
      if recursive = true ∨ names = [] then seen w.store p x.last names else none := by
    rw [shows, h.scope]
  refine ⟨h.file, h.scope, by simp [polled], ?_, ?_⟩
  · intro names t ht
    have fact := shown names
    have ht : at? names found = some t := ht
    rw [ht] at fact
    split at fact
    · exact h.named_seen fact.symm
    · cases fact
  · intro names lasts
    have now := congrArg Option.isSome (shown names)
    rw [Option.isSome_map] at now
    have goal : (at? names found).isSome = true ↔ (recursive = true ∨ names = []) ∧
        ∃ v ∈ views ++ [w], ¬ Hidden v.store p (p ++ names) := by
      rw [now]
      by_cases scope : recursive = true ∨ names = []
      · rw [if_pos scope, and_iff_right scope]
        exact h.seen_iff scope lasts
      · rw [if_neg scope]
        exact iff_of_false Bool.false_ne_true fun both => scope both.1
    exact goal

theorem file_iff (h : Knows p recursive b views x w) {later : List (World L ρ)} {y : Watch Path}
    (h' : Knows p recursive b later y w) {names : List String} (normal : Path.IsNormal (p ++ names))
    {r : List String} {kept : Prop} {e : ChangeEvent}
    (hv : Verdict (x.last.bind (at? r)) (y.last.bind (at? r)) kept e) :
    (e.file == Path.id (p ++ names)) = true ↔ r = names := by
  obtain ⟨t, node, file⟩ := node_of_verdict hv
  have named : t.id = Path.id (p ++ r) ∧ Path.IsNormal (p ++ r) := by
    rcases node with before | after
    · exact h.named r t before
    · exact h'.named r t after
  rw [file, named.1, beq_iff_eq]
  constructor
  · intro same
    exact List.append_cancel_left (Path.id_inj named.2 normal same)
  · intro same
    rw [same]

theorem created_iff (h : Knows p recursive b views x w) {later : List (World L ρ)} {found : Snapshot}
    (h' : Knows p recursive b later (polled x (.ok found)) w) {names : List String}
    (normal : Path.IsNormal (p ++ names)) :
    .created (Path.id (p ++ names)) ∈ diff x.last found ↔
      ¬ (x.last.bind (at? names)).isSome = true ∧ (at? names found).isSome = true := by
  obtain ⟨_, mem⟩ := filter_diff fun r e => h.file_iff h' normal (r := r) (e := e)
  have own : (ChangeEvent.created (Path.id (p ++ names))).file = Path.id (p ++ names) := rfl
  have told := mem (.created (Path.id (p ++ names)))
  rw [List.mem_filter, own, and_iff_left (beq_self_eq_true _), verdict_created] at told
  rw [told, Option.not_isSome_iff_eq_none, Option.isSome_iff_exists]
  refine and_congr_right fun _ => exists_congr fun t => and_iff_left_of_imp fun ht => ?_
  exact (h'.named names t ht).1

theorem created (h : Knows p recursive b views x w) (out : Outside L ρ) {names : List String}
    (lasts : Lasts b (p ++ names) w) :
    .created (Path.id (p ++ names)) ∈ news x.last (visitOf out.env x w).result ↔
      (recursive = true ∨ names = []) ∧ views ≠ [] ∧
        (∀ v ∈ views, Hidden v.store p (p ++ names)) ∧ ¬ Hidden w.store p (p ++ names) := by
  have next := h.look out
  rw [Outside.visitOf_eq h.file, glimpse] at next
  rw [Outside.visitOf_eq h.file]
  by_cases hf : p ∈ w.store.failing
  · rw [visit_failing hf]
    exact iff_of_false List.not_mem_nil fun ⟨_, _, _, shown⟩ => shown (.inl hf)
  obtain ⟨found, hr, _⟩ := visit_shows w.tree x.recursive (deepEnough_height w.store p) hf x.last
  rw [hr, if_neg hf] at next
  rw [hr]
  have before := h.known names lasts
  have after := next.known names lasts
  cases last : x.last with
  | none => exact iff_of_false List.not_mem_nil fun ⟨_, viewed, _⟩ => viewed (h.first.1 last)
  | some previous =>
    have normal : Path.IsNormal (p ++ names) := by
      obtain ⟨n, hn⟩ := Option.isSome_iff_exists.1 lasts.contains
      exact w.tree.normal _ n hn
    have told := h.created_iff next normal
    have viewed : views ≠ [] := by
      rw [ne_eq, ← h.first, last]
      nofun
    have now : (polled x (.ok found)).last.bind (at? names) = at? names found := rfl
    rw [now] at after
    rw [last] at told before
    refine told.trans ?_
    rw [before, after]
    simp only [List.mem_append, List.mem_singleton]
    constructor
    · intro both
      obtain ⟨missed, scope, v, hv, shown⟩ := both
      have all : ∀ v ∈ views, Hidden v.store p (p ++ names) := fun v hv =>
        Decidable.not_not.1 fun shown => missed ⟨scope, v, hv, shown⟩
      refine ⟨scope, viewed, all, ?_⟩
      rcases hv with hv | rfl
      · exact absurd (all v hv) shown
      · exact shown
    · intro both
      obtain ⟨scope, _, all, shown⟩ := both
      exact ⟨fun ⟨_, v, hv, seen⟩ => seen (all v hv), scope, w, .inr rfl, shown⟩

end Knows

theorem emitted (failures : List Failure) (w : World L ρ) : ∃ diagnostics,
    emitFailures World.onWatcher failures w =
      { w with watcher := { w.watcher with diagnostics } } := by
  induction failures generalizing w with
  | nil => exact ⟨_, rfl⟩
  | cons f failures ih =>
    obtain ⟨d, rest⟩ := ih (emit World.onWatcher (.captureFailed f.file f.error.message) w)
    exact ⟨d, rest⟩

section

variable {out : Outside L (Manner L ρ)} {p : Path} {recursive : Bool}
  {b : World L (Manner L ρ)}

def unseenWatch (p : Path) (recursive : Bool) (b : World L (Manner L ρ)) : Watch Path :=
  ⟨p, recursive, none, b.watcher.serial + 1⟩

variable (out p recursive b) in
theorem baseline_eq : ∃ diagnostics,
    Monitor.baseline out.env World.onMonitor p recursive b =
      ((polled (unseenWatch p recursive b)
          (visitOf out.env (unseenWatch p recursive b) b).result).last,
        { b with watcher := { b.watcher with diagnostics } }) := by
  have still : (visitOf out.env (unseenWatch p recursive b) b).after = b :=
    visit_after _ _ _ _ _ _
  have same : Capture.visit out.env.toQueries recursive (out.env.depth b) p none b =
    visitOf out.env (unseenWatch p recursive b) b := rfl
  rw [Monitor.baseline, same, World.within_onMonitor, still]
  cases (visitOf out.env (unseenWatch p recursive b) b).result with
  | error e => exact ⟨_, rfl⟩
  | ok snapshot =>
    obtain ⟨d, told⟩ := emitted (visitOf out.env (unseenWatch p recursive b) b).failures b
    exact ⟨d, by rw [told]; rfl⟩

theorem watch?_added {w : World L (Manner L ρ)} (unwatched : b.watcher.isWatching p.id = false)
    (done : Monitor.add out.env World.onMonitor p recursive b = (.ok (), w)) :
    w.journal = b.journal ∧ w.watcher.serial = b.watcher.serial + 1 ∧
      w.watcher.watch? p.id = some (polled (unseenWatch p recursive b)
        (visitOf out.env (unseenWatch p recursive b) b).result) := by
  have opened : (World.onMonitor.get b).watcher.closed = false := by
    cases closed : (World.onMonitor.get b).watcher.closed with
    | false => rfl
    | true =>
      rw [Monitor.add, if_pos closed] at done
      cases done
  obtain ⟨d, base⟩ := baseline_eq out p recursive b
  rw [Monitor.add_eq out.env World.onMonitor opened unwatched, base] at done
  let m : Monitor Path L :=
    World.onMonitor.get { b with watcher := { b.watcher with diagnostics := d } }
  have put := Monitor.register_eq (m := m) opened unwatched p recursive
    (polled (unseenWatch p recursive b)
      (visitOf out.env (unseenWatch p recursive b) b).result).last
  have step := congrArg (fun r => World.onMonitor.set r.2
    { b with watcher := { b.watcher with diagnostics := d } }) put
  have same := step.symm.trans (Prod.mk.inj done).2
  subst same
  refine ⟨rfl, Monitor.serial_insert m _ _ _ _, ?_⟩
  have found := Monitor.watch?_insert m p.id p recursive
    (polled (unseenWatch p recursive b)
      (visitOf out.env (unseenWatch p recursive b) b).result).last p.id
  rw [if_pos rfl] at found
  refine found.trans (congrArg some ?_)
  cases (visitOf out.env (unseenWatch p recursive b) b).result <;> rfl

variable (out p recursive b) in
/-- The path was added at the moment `b` and anything may have happened since. The captures of it
that have succeeded were made at the moments `views`. -/
inductive Watched : List (World L (Manner L ρ)) → World L (Manner L ρ) → Prop
  | added {w : World L (Manner L ρ)} (unwatched : b.watcher.isWatching p.id = false)
      (done : Monitor.add out.env World.onMonitor p recursive b = (.ok (), w)) :
      Watched (glimpse p b) w
  | between {views : List (World L (Manner L ρ))} {v w : World L (Manner L ρ)}
      (watched : Watched views v) (onward : Onward v w) : Watched views w
  | poll {views : List (World L (Manner L ρ))} {v : World L (Manner L ρ)}
      (watched : Watched views v) {id : FileId} {x : Watch Path}
      (hx : v.watcher.watch? id = some x) (c : Counts) :
      Watched (views ++ if id = p.id then glimpse p v else [])
        (poll out.env World.onWatcher id c v).2
  | finish {views : List (World L (Manner L ρ))} {v : World L (Manner L ρ)}
      (watched : Watched views v) :
      Watched views (World.onWatcher.update (fun w => { w with cycles := w.cycles + 1 }) v)

theorem Watched.round {views : List (World L (Manner L ρ))} {w : World L (Manner L ρ)}
    (watched : Watched out p recursive b views w) (ids : List FileId) :
    ∃ views', Watched out p recursive b views' (runInOrder out.env World.onWatcher ids w).2 := by
  have each (c : Counts) : ∃ views', Watched out p recursive b views'
      (pollEach out.env World.onWatcher ids c w).2 := by
    induction ids generalizing views w c with
    | nil => exact ⟨views, watched⟩
    | cons id ids ih =>
      simp only [pollEach]
      split
      · exact ⟨views, watched⟩
      · cases hx : (World.onWatcher.get w).watch? id with
        | none =>
          have skipped : Cycle.poll out.env World.onWatcher id c w = (c, w) := by
            simp [Cycle.poll, hx]
          rw [skipped]
          exact ih watched c
        | some x => exact ih (watched.poll hx c) _
  obtain ⟨views', last⟩ := each {}
  exact ⟨views', last.finish⟩

structure Aware (p : Path) (recursive : Bool) (b : World L ρ) (views : List (World L ρ))
    (w : World L ρ) : Prop where
  since : b.journal <+: w.journal
  given : b.watcher.serial + 1 ≤ w.watcher.serial
  knows : ∀ x, w.watcher.watch? p.id = some x → x.serial = b.watcher.serial + 1 →
    Knows p recursive b views x w

theorem watch?_poll (lawful : out.Lawful) {id : FileId} {x y : Watch Path}
    {v : World L (Manner L ρ)} (hx : v.watcher.watch? id = some x) (c : Counts)
    (hy : (poll out.env World.onWatcher id c v).2.watcher.watch? p.id = some y)
    (old : y.serial ≤ v.watcher.serial) :
    if id = p.id then y = polled x (visitOf out.env x v).result
    else v.watcher.watch? p.id = some y := by
  obtain ⟨u, ⟨⟨given, evolves⟩, _⟩, after⟩ := lawful.poll hx c
  rw [after] at hy
  cases hr : (visitOf out.env x v).result with
  | error e =>
    rw [hr] at hy
    have before := evolves.kept hy old
    split
    · next same =>
      subst same
      exact Option.some.inj (before.symm.trans hx)
    · exact before
  | ok snapshot =>
    rw [hr] at hy
    have stored := (Watcher.watch?_store id p.id x.serial snapshot u.watcher).symm.trans hy
    by_cases same : id = p.id
    · subst same
      rw [if_pos rfl] at stored
      obtain ⟨z, hz, rfl⟩ := Option.map_eq_some_iff.1 stored
      rw [Watch.stored_serial] at old
      obtain rfl : z = x := Option.some.inj ((evolves.kept hz old).symm.trans hx)
      rw [if_pos rfl, Watch.stored_self]
      rfl
    · rw [if_neg (Ne.symm same)] at stored
      rw [if_neg same]
      exact evolves.kept stored old

theorem Watched.aware (lawful : out.Lawful) {views : List (World L (Manner L ρ))}
    {w : World L (Manner L ρ)} (watched : Watched out p recursive b views w) :
    Aware p recursive b views w := by
  induction watched with
  | @added w unwatched done =>
    obtain ⟨journal, serial, found⟩ := watch?_added unwatched done
    have since : b.journal <+: w.journal := journal ▸ List.prefix_rfl
    refine ⟨since, Nat.le_of_eq serial.symm, ?_⟩
    intro x hx _
    obtain rfl := Option.some.inj (found.symm.trans hx)
    have first := (Knows.unseen p recursive b b (b.watcher.serial + 1)).look out
    exact first.onward List.prefix_rfl since
  | between _ onward ih =>
    obtain ⟨⟨given, evolves⟩, later⟩ := onward
    have serial := evolves.serial
    refine ⟨ih.since.trans later, by have := ih.given; omega, ?_⟩
    intro x hx current
    have before := evolves.kept hx (by rw [current]; exact ih.given)
    exact (ih.knows x before current).onward ih.since later
  | @poll views v _ id x hx c ih =>
    obtain ⟨later, serial⟩ := lawful.poll_frame hx c
    have given := ih.given
    refine ⟨ih.since.trans later, by omega, ?_⟩
    intro y hy current
    have found := watch?_poll lawful hx c hy (by omega)
    split at found
    · next same =>
      subst same
      rw [found] at current ⊢
      have mine : x.serial = b.watcher.serial + 1 := by
        cases hr : (visitOf out.env x v).result <;> rw [hr] at current <;> exact current
      rw [if_pos rfl]
      exact ((ih.knows x hx mine).look out).onward ih.since later
    · next other =>
      rw [if_neg other, List.append_nil]
      exact (ih.knows y found current).onward ih.since later
  | finish _ ih =>
    refine ⟨ih.since, ih.given, ?_⟩
    intro x hx current
    exact (ih.knows x hx current).onward ih.since List.prefix_rfl

/-- As long as the watch that an addition has put in is in place, its listeners hear of what was
there then and was not removed since as created only by the first capture that shows it, and only if
there were captures before that succeeded and missed it. -/
theorem created_when_first_seen (lawful : out.Lawful) {views : List (World L (Manner L ρ))}
    {w : World L (Manner L ρ)} (watched : Watched out p recursive b views w) {x : Watch Path}
    (hx : w.watcher.watch? p.id = some x) (current : x.serial = b.watcher.serial + 1) :
    (∀ q : Path, p <+: q → Lasts b q w →
      (.created q.id ∈ news x.last (visitOf out.env x w).result ↔
        (recursive = true ∨ q = p) ∧ views ≠ [] ∧ (∀ v ∈ views, Hidden v.store p q) ∧
          ¬ Hidden w.store p q)) ∧
    (∀ j l e, .call j l e ∈ pollActs out.env World.onWatcher p.id w →
      j = p.id ∧ e ∈ news x.last (visitOf out.env x w).result) ∧
    ∀ ids, ∃ views', Watched out p recursive b views'
      (runInOrder out.env World.onWatcher ids w).2 := by
  refine ⟨?_, ?_, watched.round⟩
  · intro q below lasts
    obtain ⟨names, rfl⟩ := below
    have told := ((watched.aware lawful).knows x hx current).created out lasts
    rwa [List.append_right_eq_self]
  · intro j l e call
    have own : j = p.id := isPoll_of_mem_pollActs out.env World.onWatcher hx call
    obtain ⟨snapshot, result, told⟩ := event_of_mem_pollActs out.env World.onWatcher hx call
    refine ⟨own, ?_⟩
    rw [result]
    exact told

end

def hearing : Outside Unit (Manner Unit Unit) where
  call _ _ w := (.accepted, w)
  clock _ := ⟨0⟩

def beforeAddition : World Unit (Manner Unit Unit) :=
  ⟨[.write "/d/f" ⟨#[1]⟩, .write "/d/g" ⟨#[1]⟩, .setFailing "/d/f" true], .new ⟨0⟩ 0 ⟨1⟩ 1,
    ⟨some (), false, .idle, 0, ()⟩⟩

def afterAddition : World Unit (Manner Unit Unit) :=
  (Monitor.add hearing.env World.onMonitor ["d"] true beforeAddition).2

def afterRecovery : World Unit (Manner Unit Unit) :=
  { afterAddition with journal := afterAddition.journal ++ [.setFailing "/d/f" false] }

theorem lawful_hearing : hearing.Lawful := fun _ _ w => .refl w

theorem watched_afterRecovery :
    Watched hearing ["d"] true beforeAddition [beforeAddition] afterRecovery := by
  have done : Monitor.add hearing.env World.onMonitor ["d"] true beforeAddition =
    (.ok (), afterAddition) := Prod.ext rfl rfl
  have added := Watched.added rfl done
  exact added.between ⟨⟨[], .rest⟩, List.prefix_append _ _⟩

theorem lasts_afterRecovery {q : Path} (there : beforeAddition.store.contains q = true) :
    Lasts beforeAddition q afterRecovery :=
  ⟨there, [.setFailing "/d/f" false], rfl, rfl⟩

def additionWatch : Watch Path :=
  let file := Snapshot.file (Path.id ["d", "g"]) (.ofMillis 5) 1
  ⟨["d"], true, some (.folder (Path.id ["d"]) (.ofMillis 6) [("g", file)]), 1⟩

theorem unread_file_told_as_created :
    let told := news additionWatch.last (visitOf hearing.env additionWatch afterRecovery).result
    .created (Path.id ["d", "f"]) ∈ told ∧ .created (Path.id ["d", "g"]) ∉ told := by
  intro told
  have watch : afterRecovery.watcher.watch? (Path.id ["d"]) = some additionWatch := rfl
  obtain ⟨heard, _⟩ :=
    created_when_first_seen lawful_hearing watched_afterRecovery watch rfl
  have f := heard ["d", "f"] (List.prefix_append ["d"] ["f"]) (lasts_afterRecovery rfl)
  have g := heard ["d", "g"] (List.prefix_append ["d"] ["g"]) (lasts_afterRecovery rfl)
  constructor
  · refine f.2 ⟨.inl rfl, List.cons_ne_nil _ _, ?_, ?_⟩
    · intro v hv
      rw [List.mem_singleton.1 hv]
      decide +kernel
    · decide +kernel
  · intro created
    have hidden := (g.1 created).2.2.1 beforeAddition (List.mem_singleton.2 rfl)
    revert hidden
    decide +kernel

theorem existing_file_told_as_created :
    let q : Path := ["d", "f"]
    Watched hearing ["d"] true beforeAddition [beforeAddition] afterRecovery ∧
      Lasts beforeAddition q afterRecovery ∧
      .call (Path.id ["d"]) ⟨1, ()⟩ (.created q.id) ∈
        pollActs hearing.env World.onWatcher (Path.id ["d"]) afterRecovery := by
  intro q
  refine ⟨watched_afterRecovery, lasts_afterRecovery rfl, ?_⟩
  have third : (pollActs hearing.env World.onWatcher (Path.id ["d"]) afterRecovery)[2]? =
    some (.call (Path.id ["d"]) ⟨1, ()⟩ (.created q.id)) := rfl
  exact List.mem_of_getElem? third

end PathWatch.Memory
