import PathWatch.Event
import PathWatch.Keyed

/-!
The listeners bound to each path, in the order in which they were bound. Every
binding has a number of its own that is never given out again. A path without
listeners has no row in the table.
-/
namespace PathWatch

structure Binding (L : Type) where
  number : Nat
  listener : L
deriving Repr

structure Bindings (L : Type) where
  table : List (FileId × List (Binding L)) := []
  next : Nat := 1
deriving Repr

def listenerText (number : Nat) : String := s!"listener#{number}"

namespace Bindings

variable {L : Type}

def of (b : Bindings L) (file : FileId) : List (Binding L) := (b.table.lookup file).getD []

def count (b : Bindings L) (file : FileId) : Nat := (b.of file).length

def isBound (b : Bindings L) (file : FileId) : Bool := (b.table.lookup file).isSome

def holds (b : Bindings L) (file : FileId) (number : Nat) : Bool :=
  (b.of file).any fun x => x.number == number

def bind (b : Bindings L) (file : FileId) (listener : L) : Nat × Bindings L :=
  (b.next, {
    table := Keyed.insert file (b.of file ++ [⟨b.next, listener⟩]) b.table
    next := b.next + 1 })

def unbind (b : Bindings L) (file : FileId) : Nat × Bindings L :=
  (b.count file, { b with table := Keyed.erase file b.table })

def unbindListener (b : Bindings L) (file : FileId) (number : Nat) : Bool × Bindings L :=
  let kept := (b.of file).filter fun x => x.number != number
  (b.holds file number,
    { b with table :=
        if kept.isEmpty then Keyed.erase file b.table
        else Keyed.insert file kept b.table })

def clear (b : Bindings L) : Bindings L := { b with table := [] }

theorem of_bind_self (b : Bindings L) (file : FileId) (l : L) :
    (b.bind file l).2.of file = b.of file ++ [⟨b.next, l⟩] := by
  simp [bind, of, Keyed.lookup_insert_self]

theorem of_bind_ne (b : Bindings L) {file other : FileId} (h : other ≠ file) (l : L) :
    (b.bind file l).2.of other = b.of other := by
  simp [bind, of, Keyed.lookup_insert_ne h]

theorem of_unbind (b : Bindings L) (file other : FileId) :
    (b.unbind file).2.of other = if other = file then [] else b.of other := by
  simp only [unbind, of, Keyed.lookup_erase]
  split <;> rfl

theorem of_unbindListener (b : Bindings L) (file other : FileId) (number : Nat) :
    (b.unbindListener file number).2.of other =
      if other = file then (b.of file).filter (fun x => x.number != number) else b.of other := by
  by_cases h : other = file
  · subst h
    by_cases e : ((b.of other).filter fun x => x.number != number).isEmpty
    · have z := List.isEmpty_iff.1 e
      simp only [unbindListener, z, List.isEmpty_nil, if_true]
      simp [of, Keyed.lookup_erase]
    · simp only [unbindListener, if_neg e, if_true]
      simp [of, Keyed.lookup_insert_self]
  · simp only [unbindListener, if_neg h]
    split
    · simp [of, Keyed.lookup_erase, h]
    · simp [of, Keyed.lookup_insert_ne h]

theorem of_clear (b : Bindings L) (file : FileId) : b.clear.of file = [] := rfl

end Bindings

end PathWatch
