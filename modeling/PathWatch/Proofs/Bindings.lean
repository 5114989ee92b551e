import Mathlib.Data.List.Nodup
import PathWatch.Bindings

/-! What becomes of a table of bindings in the course of changes. A number is
given out once, so a binding that was taken away never comes back, and a new one
is never taken for one of those before it. -/
namespace PathWatch.Bindings

variable {L : Type}

inductive Edit (L : Type)
  | bind (file : FileId) (listener : L)
  | unbind (file : FileId)
  | unbindListener (file : FileId) (number : Nat)
  | clear

def Edit.apply : Edit L → Bindings L → Bindings L
  | .bind file listener, b => (b.bind file listener).2
  | .unbind file, b => (b.unbind file).2
  | .unbindListener file number, b => (b.unbindListener file number).2
  | .clear, b => b.clear

def edit (b : Bindings L) (edits : List (Edit L)) : Bindings L :=
  edits.foldl (fun b e => e.apply b) b

theorem edit_append (b : Bindings L) (edits later : List (Edit L)) :
    b.edit (edits ++ later) = (b.edit edits).edit later :=
  List.foldl_append

variable {b : Bindings L} {file : FileId} {x y : Binding L}

theorem Edit.of_apply (e : Edit L) (b : Bindings L) (file : FileId) :
    b.next ≤ (e.apply b).next ∧ (((e.apply b).of file).Sublist (b.of file) ∨
      (∃ l, (e.apply b).of file = b.of file ++ [⟨b.next, l⟩]) ∧ b.next < (e.apply b).next) := by
  cases e with
  | bind f l =>
    have next : b.next < ((Edit.bind f l).apply b).next := Nat.lt_succ_self _
    refine ⟨Nat.le_of_lt next, ?_⟩
    by_cases h : file = f
    · subst h
      exact .inr ⟨⟨l, of_bind_self b file l⟩, next⟩
    · refine .inl ?_
      rw [apply, of_bind_ne b h]
  | unbind f =>
    refine ⟨Nat.le_refl _, .inl ?_⟩
    rw [apply, of_unbind]
    split
    · exact List.nil_sublist _
    · exact List.Sublist.refl _
  | unbindListener f n =>
    refine ⟨Nat.le_refl _, .inl ?_⟩
    rw [apply, of_unbindListener]
    split
    · next h =>
      rw [h]
      exact List.filter_sublist
    · exact List.Sublist.refl _
  | clear => exact ⟨Nat.le_refl _, .inl (List.nil_sublist _)⟩

theorem of_eq_nil (h : b.isBound file = false) : b.of file = [] := by
  rw [isBound, Option.isSome_eq_false_iff, Option.isNone_iff_eq_none] at h
  rw [of, h]
  rfl

theorem isBound_of_of_ne_nil (h : b.of file ≠ []) : b.isBound file = true := by
  cases hb : b.isBound file with
  | true => rfl
  | false => exact absurd (of_eq_nil hb) h

theorem isBound_bind (b : Bindings L) (file other : FileId) (l : L) :
    (b.bind file l).2.isBound other = (decide (other = file) || b.isBound other) := by
  by_cases h : other = file
  · subst h
    simp [bind, isBound, Keyed.lookup_insert_self]
  · simp [bind, isBound, Keyed.lookup_insert_ne h, h]

theorem isBound_unbind (b : Bindings L) (file other : FileId) :
    (b.unbind file).2.isBound other = (!decide (other = file) && b.isBound other) := by
  rw [isBound, unbind, Keyed.lookup_erase]
  by_cases h : other = file
  · simp [h]
  · simp [h, isBound]

theorem isBound_of_unbindListener {number : Nat} {other : FileId}
    (h : (b.unbindListener file number).2.isBound other = true) : b.isBound other = true := by
  by_cases e : other = file
  · subst e
    apply isBound_of_of_ne_nil
    intro none
    simp [unbindListener, none, isBound, Keyed.lookup_erase] at h
  · rw [isBound, unbindListener] at h
    dsimp only at h
    split at h
    · rwa [Keyed.lookup_erase, if_neg e] at h
    · rwa [Keyed.lookup_insert_ne e] at h

structure Numbered (b : Bindings L) : Prop where
  given : ∀ file, ∀ x ∈ b.of file, x.number < b.next
  increasing : ∀ file, (b.of file).Pairwise fun x y => x.number < y.number

namespace Numbered

theorem empty : ({} : Bindings L).Numbered where
  given _ _ h := nomatch h
  increasing _ := .nil

theorem apply (h : b.Numbered) (e : Edit L) : (e.apply b).Numbered := by
  constructor
  · intro f x hx
    obtain ⟨next, fewer | ⟨⟨l, more⟩, later⟩⟩ := e.of_apply b f
    · exact Nat.lt_of_lt_of_le (h.given f x (fewer.mem hx)) next
    · rw [more] at hx
      rcases List.mem_append.1 hx with hx | hx
      · exact Nat.lt_trans (h.given f x hx) later
      · rw [List.mem_singleton.1 hx]
        exact later
  · intro f
    obtain ⟨_, fewer | ⟨⟨l, more⟩, _⟩⟩ := e.of_apply b f
    · exact (h.increasing f).sublist fewer
    · rw [more, List.pairwise_append]
      refine ⟨h.increasing f, List.pairwise_singleton _ _, ?_⟩
      intro x hx y hy
      rw [List.mem_singleton.1 hy]
      exact h.given f x hx

theorem edit (h : b.Numbered) (edits : List (Edit L)) : (b.edit edits).Numbered := by
  induction edits generalizing b with
  | nil => exact h
  | cons e edits ih => exact ih (h.apply e)

theorem nodup (h : b.Numbered) (file : FileId) : (b.of file).Nodup := by
  refine (h.increasing file).imp ?_
  intro x y less same
  subst same
  exact Nat.lt_irrefl _ less

end Numbered

end PathWatch.Bindings
