import PathWatch.Proofs.Watcher

/-! What requests do to the watches of a watcher. A list names the watches that
they put in place, each under its path and with the serial number it was given. -/
namespace PathWatch

/-- What can be asked of a watcher at any moment, from inside a round too. -/
inductive Request (H L : Type)
  | insert (id : FileId) (file : H) (recursive : Bool) (baseline : Option Snapshot)
  | remove (id : FileId)
  | bind (id : FileId) (listener : L)
  | unbind (id : FileId)
  | unbindListener (id : FileId) (number : Nat)
  | clearBindings
  | onDiagnostics (f : Diagnostics → Diagnostics)
  | setDelay (d : Duration)
  | setChecksPerRun (n : Nat)
  | close

variable {H L : Type}

namespace Request

def apply : Request H L → Watcher H L → Watcher H L
  | .insert id file recursive baseline, w => (w.insert id file recursive baseline).2
  | .remove id, w => (w.remove id).2
  | .bind id listener, w => (w.bind id listener).2
  | .unbind id, w => (w.unbind id).2
  | .unbindListener id number, w => (w.unbindListener id number).2
  | .clearBindings, w => w.clearBindings
  | .onDiagnostics f, w => (w.onDiagnostics fun d => ((), f d)).2
  | .setDelay d, w => w.setDelay d
  | .setChecksPerRun n, w => w.setChecksPerRun n
  | .close, w => w.close

def given (w : Watcher H L) : Request H L → List (FileId × Watch H)
  | .insert id file recursive baseline => [(id, ⟨file, recursive, baseline, w.serial + 1⟩)]
  | _ => []

theorem serial_apply (r : Request H L) (w : Watcher H L) :
    (r.apply w).serial = w.serial + (r.given w).length := by
  cases r <;> rfl

theorem watch?_apply {r : Request H L} {w : Watcher H L} {k : FileId} {y : Watch H}
    (h : (r.apply w).watch? k = some y) : w.watch? k = some y ∨ (k, y) ∈ r.given w := by
  cases r with
  | insert id file recursive baseline =>
    rw [apply, Watcher.watch?_insert] at h
    split at h
    · next e =>
      cases h
      exact .inr (List.mem_singleton.2 (by rw [e]))
    · exact .inl h
  | remove id =>
    rw [apply, Watcher.watch?_remove] at h
    split at h
    · cases h
    · exact .inl h
  | close => cases h
  | _ => exact .inl h

theorem mem_given {r : Request H L} {w : Watcher H L} {p : FileId × Watch H}
    (h : p ∈ r.given w) : r.given w = [p] ∧ p.2.serial = w.serial + 1 := by
  cases r with
  | insert id file recursive baseline =>
    have hp := List.mem_singleton.1 h
    subst hp
    exact ⟨rfl, rfl⟩
  | _ => cases h

end Request

inductive Evolves : Watcher H L → List (FileId × Watch H) → Watcher H L → Prop
  | rest {w : Watcher H L} : Evolves w [] w
  | request {w w' : Watcher H L} {later : List (FileId × Watch H)} (r : Request H L)
      (rest : Evolves (r.apply w) later w') : Evolves w (r.given w ++ later) w'

namespace Evolves

variable {w w' w'' : Watcher H L} {given later : List (FileId × Watch H)}

theorem single (r : Request H L) (w : Watcher H L) : Evolves w (r.given w) (r.apply w) := by
  have h := request r (rest (w := r.apply w))
  rwa [List.append_nil] at h

theorem trans (h : Evolves w given w') (h' : Evolves w' later w'') :
    Evolves w (given ++ later) w'' := by
  induction h with
  | rest => exact h'
  | request r _ ih =>
    rw [List.append_assoc]
    exact request r (ih h')

theorem serial (h : Evolves w given w') : w'.serial = w.serial + given.length := by
  induction h with
  | rest => rfl
  | request r _ ih =>
    have first := r.serial_apply
    rw [ih, first, List.length_append]
    omega

theorem watch? (h : Evolves w given w') {k : FileId} {y : Watch H} (hy : w'.watch? k = some y) :
    w.watch? k = some y ∨ (k, y) ∈ given := by
  induction h with
  | rest => exact .inl hy
  | request r _ ih =>
    rcases ih hy with before | new
    · rcases Request.watch?_apply before with before | new
      · exact .inl before
      · exact .inr (List.mem_append_left _ new)
    · exact .inr (List.mem_append_right _ new)

theorem serials (h : Evolves w given w') :
    given.Pairwise (fun p q => p.2.serial < q.2.serial) ∧
      ∀ p ∈ given, w.serial < p.2.serial ∧ p.2.serial ≤ w'.serial := by
  induction h with
  | rest => exact ⟨.nil, nofun⟩
  | @request w w' later r rest ih =>
    obtain ⟨increasing, between⟩ := ih
    have first := r.serial_apply w
    have total := rest.serial
    have new : ∀ p ∈ r.given w, p.2.serial = w.serial + 1 ∧ (r.given w).length = 1 := by
      intro p hp
      obtain ⟨only, number⟩ := Request.mem_given hp
      exact ⟨number, congrArg List.length only⟩
    refine ⟨List.pairwise_append.2 ⟨?_, increasing, ?_⟩, ?_⟩
    · cases hg : r.given w with
      | nil => exact .nil
      | cons p ps =>
        obtain ⟨only, _⟩ := Request.mem_given (hg ▸ List.mem_cons_self : p ∈ r.given w)
        rw [← hg, only]
        exact List.pairwise_singleton _ _
    · intro p hp q hq
      have hp := new p hp
      have hq := between q hq
      omega
    · intro p hp
      rcases List.mem_append.1 hp with hp | hp
      · have hp := new p hp
        omega
      · have hp := between p hp
        omega

theorem kept (h : Evolves w given w') {k : FileId} {y : Watch H} (hy : w'.watch? k = some y)
    (before : y.serial ≤ w.serial) : w.watch? k = some y := by
  rcases h.watch? hy with old | new
  · exact old
  · have later := (h.serials.2 _ new).1
    dsimp only at later
    omega

end Evolves

/-- What is known of a watcher by the watches that were ever put in place, in order, and the
polls that were made of them. -/
structure Sound (entries : List (FileId × Watch H)) (polls : List (FileId × Nat))
    (w : Watcher H L) : Prop where
  increasing : entries.Pairwise fun p q => p.2.serial < q.2.serial
  bounded : ∀ p ∈ entries, p.2.serial ≤ w.serial
  origin : ∀ k y, w.watch? k = some y → ∃ b, (k, b) ∈ entries ∧ { y with last := b.last } = b ∧
    ((k, y.serial) ∉ polls → y = b)

namespace Sound

variable {entries given : List (FileId × Watch H)} {polls : List (FileId × Nat)}
  {w w' : Watcher H L}

theorem new (delay : Duration) (checks : Nat) (slow : Duration) (capacity : Nat) :
    Sound [] [] (Watcher.new delay checks slow capacity : Watcher H L) :=
  ⟨.nil, nofun, nofun⟩

theorem serial_le (h : Sound entries polls w) {k : FileId} {y : Watch H}
    (hy : w.watch? k = some y) : y.serial ≤ w.serial := by
  obtain ⟨b, hb, same, _⟩ := h.origin k y hy
  have hs := congrArg Watch.serial same
  have bound := h.bounded _ hb
  dsimp only at hs bound
  omega

theorem evolves (h : Sound entries polls w) (e : Evolves w given w') :
    Sound (entries ++ given) polls w' := by
  obtain ⟨increasing, between⟩ := e.serials
  have total := e.serial
  refine ⟨List.pairwise_append.2 ⟨h.increasing, increasing, ?_⟩, ?_, ?_⟩
  · intro p hp q hq
    have hp := h.bounded p hp
    have hq := between q hq
    omega
  · intro p hp
    rcases List.mem_append.1 hp with hp | hp
    · have hp := h.bounded p hp
      omega
    · exact (between p hp).2
  · intro k y hy
    rcases e.watch? hy with before | new
    · obtain ⟨b, hb, rest⟩ := h.origin k y before
      exact ⟨b, List.mem_append_left _ hb, rest⟩
    · exact ⟨y, List.mem_append_right _ new, rfl, fun _ => rfl⟩

theorem polled (h : Sound entries polls w) (more : List (FileId × Nat)) :
    Sound entries (polls ++ more) w := by
  refine ⟨h.increasing, h.bounded, ?_⟩
  intro k y hy
  obtain ⟨b, hb, same, fresh⟩ := h.origin k y hy
  exact ⟨b, hb, same, fun hn => fresh fun hp => hn (List.mem_append_left _ hp)⟩

theorem store (h : Sound entries polls w) {id : FileId} {serial : Nat}
    (hp : (id, serial) ∈ polls) (snapshot : Snapshot) :
    Sound entries polls (w.store id serial snapshot) := by
  refine ⟨h.increasing, ?_, ?_⟩
  · rw [(w.store_frame id serial snapshot).2.2]
    exact h.bounded
  · intro k y hy
    rw [Watcher.watch?_store] at hy
    split at hy
    · next e =>
      subst e
      obtain ⟨x, hx, rfl⟩ := Option.map_eq_some_iff.1 hy
      obtain ⟨b, hb, same, fresh⟩ := h.origin k x hx
      by_cases hs : x.serial = serial
      · subst hs
        rw [Watch.stored_self]
        exact ⟨b, hb, same, fun hn => absurd hp hn⟩
      · rw [Watch.stored_of_ne _ hs]
        exact ⟨b, hb, same, fresh⟩
    · exact h.origin k y hy

end Sound

def Stale (id : FileId) (serial : Nat) (w : Watcher H L) : Prop :=
  serial ≤ w.serial ∧ w.isCurrent id serial = false

namespace Stale

variable {id : FileId} {serial : Nat} {w w' : Watcher H L}

theorem evolves (h : Stale id serial w) {given : List (FileId × Watch H)}
    (e : Evolves w given w') : Stale id serial w' := by
  obtain ⟨le, gone⟩ := h
  have total := e.serial
  refine ⟨by omega, Bool.eq_false_iff.2 fun current => ?_⟩
  obtain ⟨y, hy, hs⟩ := Watcher.isCurrent_iff.1 current
  rcases e.watch? hy with before | new
  · rw [Watcher.isCurrent_iff.2 ⟨y, before, hs⟩] at gone
    cases gone
  · have later := (e.serials.2 _ new).1
    dsimp only at later
    omega

theorem store (h : Stale id serial w) (j : FileId) (n : Nat) (snapshot : Snapshot) :
    Stale id serial (w.store j n snapshot) := by
  obtain ⟨le, gone⟩ := h
  refine ⟨by rwa [(w.store_frame j n snapshot).2.2], Bool.eq_false_iff.2 fun current => ?_⟩
  obtain ⟨y, hy, hs⟩ := Watcher.isCurrent_iff.1 current
  rw [Watcher.watch?_store] at hy
  have before : ∃ x, w.watch? id = some x ∧ x.serial = serial := by
    split at hy
    · obtain ⟨x, hx, rfl⟩ := Option.map_eq_some_iff.1 hy
      rw [Watch.stored_serial] at hs
      exact ⟨x, hx, hs⟩
    · exact ⟨y, hy, hs⟩
  rw [Watcher.isCurrent_iff.2 before] at gone
  cases gone

end Stale

end PathWatch
