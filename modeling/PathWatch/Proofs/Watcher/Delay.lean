import Mathlib.Logic.Function.Iterate
import PathWatch.Proofs.Monitor.Step
import PathWatch.Proofs.Watcher.Evolution

/-! How long a watcher waits between two rounds: what was last asked of it, in whole
milliseconds and within the bounds of a delay. -/
namespace PathWatch

variable {H L : Type}

namespace Config

theorem delayMs_normalized (c : Config) :
    c.normalized.delayMs = min (max c.delayMs 20) maxMillis := by
  rw [normalized_eq]

theorem millis_delay (c : Config) : c.delay.millis = c.delayMs := Duration.millis_ofMillis _

theorem delayMillis_iterate_normalized (c : Config) (n : Nat) :
    (normalized^[n] c).delay.clampDelay.delayMillis = c.delay.clampDelay.delayMillis := by
  have once (c : Config) :
      c.normalized.delay.clampDelay.delayMillis = c.delay.clampDelay.delayMillis := by
    rw [Duration.delayMillis_clampDelay, Duration.delayMillis_clampDelay, millis_delay,
      millis_delay, delayMs_normalized]
    exact floor_stays (by decide)
  induction n generalizing c with
  | zero => rfl
  | succ n ih => rw [Function.iterate_succ_apply, ih, once]

end Config

def Request.delay? : Request H L → Option Duration
  | .setDelay d => some d
  | _ => none

namespace Watcher

def Paced (w : Watcher H L) : Prop := 20 ≤ w.delayMs ∧ w.delayMs ≤ maxMillis

theorem delay_setDelay (d : Duration) (w : Watcher H L) :
    (w.setDelay d).delay = .ofMillis (min (max d.millis 20) maxMillis) := by
  rw [delay, delayMs_setDelay, Duration.delayMillis_clampDelay]

theorem paced_of_delayMs {w : Watcher H L} {d : Duration}
    (h : w.delayMs = d.clampDelay.delayMillis) : w.Paced := by
  rw [Duration.delayMillis_clampDelay] at h
  have bounds : 20 ≤ maxMillis := by decide
  constructor <;> omega

theorem Paced.setDelay_delay {w : Watcher H L} (h : w.Paced) : w.setDelay w.delay = w := by
  obtain ⟨least, most⟩ := h
  have same : w.delay.clampDelay.delayMillis = w.delayMs := by
    rw [Duration.delayMillis_clampDelay, delay, Duration.millis_ofMillis, Nat.max_eq_left least,
      Nat.min_eq_left most]
  rw [setDelay, same]

theorem delayMs_apply (r : Request H L) (w : Watcher H L) :
    (r.apply w).delayMs = (r.delay?.map fun d => d.clampDelay.delayMillis).getD w.delayMs := by
  cases r <;> rfl

theorem delayMs_requests (requests : List (Request H L)) {w : Watcher H L} {start : Duration}
    (h : w.delayMs = start.clampDelay.delayMillis) :
    (requests.foldl (fun w r => r.apply w) w).delayMs =
      ((requests.filterMap Request.delay?).getLastD start).clampDelay.delayMillis := by
  induction requests generalizing w start with
  | nil => exact h
  | cons r requests ih =>
    have next := delayMs_apply r w
    cases asked : r.delay? with
    | none =>
      rw [asked] at next
      rw [List.filterMap_cons_none asked]
      exact ih (next.trans h)
    | some d =>
      rw [asked] at next
      rw [List.filterMap_cons_some asked, List.getLastD_cons]
      exact ih next

end Watcher

namespace Monitor

theorem delayMs_register (id : FileId) (file : H) (recursive : Bool) (baseline : Option Snapshot)
    (m : Monitor H L) :
    (m.register id file recursive baseline).2.watcher.delayMs = m.watcher.delayMs := by
  rw [register]
  split
  · rfl
  split
  · rfl
  · rw [insert]
    cases m.listener <;> rfl

theorem Step.paced_apply (step : Step H L) {m : Monitor H L} (h : m.watcher.Paced) :
    (step.apply m).watcher.Paced := by
  -- Only a request for a delay touches it, and some steps look first at the state of the monitor.
  cases step with
  | setDelay d => exact Watcher.paced_of_delayMs (Watcher.delayMs_setDelay d m.watcher)
  | register id file recursive baseline =>
    rw [Watcher.Paced, apply, delayMs_register]
    exact h
  | addListener id listener =>
    rw [apply, Monitor.addListener]
    split <;> exact h
  | start =>
    rw [apply, Monitor.start]
    split <;> exact h
  | stop =>
    rw [apply, Monitor.stop]
    split <;> exact h
  | close =>
    rw [apply, Monitor.close]
    split <;> exact h
  | store id serial snapshot =>
    rw [apply, onWatcher, Watcher.store_eq]
    exact h
  | _ => exact h

theorem Reached.paced {m : Monitor H L} (h : Reached m) : m.watcher.Paced := by
  obtain ⟨listener, config, deeds, steps⟩ := h
  have start : (new listener config : Monitor H L).watcher.Paced := Watcher.paced_of_delayMs rfl
  generalize new listener config = first at start steps
  induction steps with
  | rest => exact start
  | step taken _ ih => exact ih (taken.paced_apply start)

end Monitor

namespace Watcher

/-- The delay of a watcher is the last one that was asked for, in whole milliseconds and within
bounds that no history leads out of: it orders as what was asked for, and it is kept when it is
asked for again. Settings give the same one however often they are normalised. -/
theorem delay_is_last_asked (start : Duration) (checksPerRun : Nat) (slowAfter : Duration)
    (capacity : Nat) (requests : List (Request H L)) :
    let millis (n : Nat) : Duration := .ofMillis (min (2 ^ 64 - 1) (max 20 n))
    let w := requests.foldl (fun w r => r.apply w) (new start checksPerRun slowAfter capacity)
    w.delay = millis (((requests.filterMap Request.delay?).getLastD start).nanos / 1000000) ∧
      (∀ d, (w.setDelay d).delay = millis (d.nanos / 1000000)) ∧
      (∀ d e : Duration, d.nanos ≤ e.nanos →
        (w.setDelay d).delay.nanos ≤ (w.setDelay e).delay.nanos) ∧
      w.setDelay w.delay = w ∧
      (∀ (c : Config) (n : Nat),
        (ofConfig (Config.normalized^[n] c) : Watcher H L).delay = millis c.delayMs ∧
        ∀ listener : Option L,
          (Monitor.new listener (Config.normalized^[n] c) : Monitor H L).watcher.delay =
            millis c.delayMs) ∧
      ∀ m : Monitor H L, m.Reached → 20 ≤ m.watcher.delayMs ∧ m.watcher.delayMs < 2 ^ 64 := by
  intro millis w
  have bounds (n : Nat) : Duration.ofMillis (min (max n 20) maxMillis) = millis n := by
    rw [Nat.max_comm, Nat.min_comm]
    rfl
  have asked (d : Duration) (w : Watcher H L) : (w.setDelay d).delay = millis (d.nanos / 1000000) :=
    (delay_setDelay d w).trans (bounds _)
  have last : w.delayMs =
      ((requests.filterMap Request.delay?).getLastD start).clampDelay.delayMillis :=
    delayMs_requests requests rfl
  have settings (c : Config) (n : Nat) :
      (ofConfig (Config.normalized^[n] c) : Watcher H L).delay = millis c.delayMs := by
    rw [delay, ofConfig, new, c.delayMillis_iterate_normalized, Duration.delayMillis_clampDelay,
      c.millis_delay, bounds]
  refine ⟨?_, fun d => asked d w, ?_, (paced_of_delayMs last).setDelay_delay, ?_, ?_⟩
  · rw [delay, last, Duration.delayMillis_clampDelay]
    exact bounds _
  · intro d e order
    rw [asked, asked]
    simp only [millis, Duration.ofMillis]
    have parts : d.nanos / 1000000 ≤ e.nanos / 1000000 := Nat.div_le_div_right order
    omega
  · intro c n
    refine ⟨settings c n, fun listener => ?_⟩
    rw [← settings c (n + 1), Function.iterate_succ_apply']
    rfl
  · intro m reached
    have bounds := reached.paced
    exact ⟨bounds.1, Nat.lt_of_le_of_lt bounds.2 (by decide)⟩

theorem longest_delay_held :
    let w : Watcher Unit Unit := (new ⟨0⟩ 0 ⟨0⟩ 1).setDelay (.ofParts (2 ^ 64 - 1) 999999999)
    let m : Monitor Unit Unit := .new none { delayMs := 0 }
    w.delay = .ofMillis (2 ^ 64 - 1) ∧
      (w.setDelay ⟨19999999⟩).delay = .ofMillis 20 ∧ (w.setDelay ⟨20999999⟩).delay = .ofMillis 20 ∧
      (w.setDelay ⟨19999999⟩).delay.nanos ≤ (w.setDelay ⟨20999999⟩).delay.nanos ∧
      m.Reached ∧ 20 ≤ m.watcher.delayMs ∧ m.watcher.delayMs < 2 ^ 64 := by
  intro w m
  obtain ⟨last, asked, order, _, _, reached⟩ := delay_is_last_asked ⟨0⟩ 0 ⟨0⟩ 1
    [(.setDelay (.ofParts (2 ^ 64 - 1) 999999999) : Request Unit Unit)]
  have fresh : m.Reached := ⟨_, _, .refl _⟩
  exact ⟨last, asked ⟨19999999⟩, asked ⟨20999999⟩, order _ _ (by decide), fresh, reached m fresh⟩

end Watcher

end PathWatch
