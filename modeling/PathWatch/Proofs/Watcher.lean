import PathWatch.Proofs.Keyed
import PathWatch.Watcher

/-! Which watches are in place after an operation on a watcher. -/
namespace PathWatch

instance : Std.Irrefl (α := FileId) (· < ·) := ⟨fun a => String.lt_irrefl a.text⟩

variable {H L : Type}

def Watch.stored (serial : Nat) (snapshot : Snapshot) (x : Watch H) : Watch H :=
  if x.serial = serial then { x with last := some snapshot } else x

theorem Watch.stored_self (x : Watch H) (snapshot : Snapshot) :
    x.stored x.serial snapshot = { x with last := some snapshot } :=
  if_pos rfl

theorem Watch.stored_serial (serial : Nat) (snapshot : Snapshot) (x : Watch H) :
    (x.stored serial snapshot).serial = x.serial := by
  rw [Watch.stored]
  split <;> rfl

theorem Watch.stored_of_ne {serial : Nat} (snapshot : Snapshot) {x : Watch H}
    (h : x.serial ≠ serial) : x.stored serial snapshot = x :=
  if_neg h

namespace Watcher

theorem mem_keys_iff_isWatching {w : Watcher H L} {id : FileId} :
    id ∈ Keyed.keys w.watches ↔ w.isWatching id = true :=
  Keyed.isSome_lookup_iff.symm

theorem watch?_insert (id j : FileId) (file : H) (recursive : Bool) (baseline : Option Snapshot)
    (w : Watcher H L) : (w.insert id file recursive baseline).2.watch? j =
      if j = id then some ⟨file, recursive, baseline, w.serial + 1⟩ else w.watch? j := by
  by_cases h : j = id
  · subst h
    simp [insert, watch?, Keyed.lookup_insert_self]
  · simp [insert, watch?, Keyed.lookup_insert_ne h, h]

theorem watch?_remove (id j : FileId) (w : Watcher H L) :
    (w.remove id).2.watch? j = if j = id then none else w.watch? j := by
  simp only [remove, watch?, Keyed.lookup_erase]

theorem watch?_store (id j : FileId) (serial : Nat) (snapshot : Snapshot) (w : Watcher H L) :
    (w.store id serial snapshot).watch? j =
      if j = id then (w.watch? j).map (Watch.stored serial snapshot) else w.watch? j := by
  rw [store]
  by_cases h : j = id
  · subst h
    cases hx : w.watch? j with
    | none => simp [hx]
    | some x =>
      by_cases hs : x.serial = serial
      · simp [Watch.stored, hs, watch?, Keyed.lookup_insert_self]
      · simp [Watch.stored, hs, hx]
  · rw [if_neg h]
    cases w.watch? id with
    | none => rfl
    | some x =>
      dsimp only
      split
      · exact Keyed.lookup_insert_ne h _ _
      · rfl

theorem store_eq (id : FileId) (serial : Nat) (snapshot : Snapshot) (w : Watcher H L) :
    w.store id serial snapshot = { w with watches := (w.store id serial snapshot).watches } := by
  unfold store
  split
  · split <;> rfl
  · rfl

theorem store_frame (id : FileId) (serial : Nat) (snapshot : Snapshot) (w : Watcher H L) :
    (w.store id serial snapshot).bindings = w.bindings ∧
      (w.store id serial snapshot).closed = w.closed ∧
      (w.store id serial snapshot).serial = w.serial := by
  rw [store_eq]
  exact ⟨rfl, rfl, rfl⟩

theorem isCurrent_iff {w : Watcher H L} {id : FileId} {serial : Nat} :
    w.isCurrent id serial = true ↔ ∃ x, w.watch? id = some x ∧ x.serial = serial := by
  simp only [isCurrent, Option.any_eq_true, beq_iff_eq]

theorem store_of_not_current {w : Watcher H L} {id : FileId} {serial : Nat}
    (h : w.isCurrent id serial = false) (snapshot : Snapshot) : w.store id serial snapshot = w := by
  rw [store]
  rw [isCurrent] at h
  cases hx : w.watch? id with
  | none => rfl
  | some x =>
    rw [hx, Option.any_some] at h
    simp only [h]
    rfl

end Watcher

end PathWatch
