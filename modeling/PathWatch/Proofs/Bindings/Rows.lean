import PathWatch.Proofs.Bindings
import PathWatch.Proofs.Keyed

/-! A table of bindings is one plain list of numbered rows, told apart by their paths: each
operation has the answer that it would have with the list, and leaves the rows that it would. -/
namespace PathWatch.Bindings

variable {L : Type}

structure Row (L : Type) where
  number : Nat
  file : FileId
  listener : L

def Row.binding (x : Row L) : Binding L := ⟨x.number, x.listener⟩

/-- The rows in the order in which they were made, and how many there have ever been. -/
structure Rows (L : Type) where
  rows : List (Row L) := []
  made : Nat := 0

inductive Answer
  | number (n : Nat)
  | count (n : Nat)
  | found (b : Bool)
  | none
deriving DecidableEq

def Answer.number? : Answer → Option Nat
  | .number n => some n
  | _ => .none

namespace Rows

def of (r : Rows L) (file : FileId) : List (Row L) := r.rows.filter fun x => x.file = file

def keep (r : Rows L) (p : Row L → Bool) : Rows L := { r with rows := r.rows.filter p }

def apply : Edit L → Rows L → Answer × Rows L
  | .bind file listener, r =>
    let number := r.made + 1
    (.number number, ⟨r.rows ++ [⟨number, file, listener⟩], number⟩)
  | .unbind file, r => (.count (r.of file).length, r.keep fun x => x.file ≠ file)
  | .unbindListener file number, r =>
    (.found (r.rows.any fun x => x.file = file ∧ x.number = number),
      r.keep fun x => ¬(x.file = file ∧ x.number = number))
  | .clear, r => (.none, r.keep fun _ => false)

def edit (r : Rows L) (edits : List (Edit L)) : Rows L := edits.foldl (fun r e => (apply e r).2) r

def answers : List (Edit L) → Rows L → List Answer
  | [], _ => []
  | e :: edits, r => (apply e r).1 :: answers edits (apply e r).2

end Rows

def Edit.answer : Edit L → Bindings L → Answer
  | .bind file listener, b => .number (b.bind file listener).1
  | .unbind file, b => .count (b.unbind file).1
  | .unbindListener file number, b => .found (b.unbindListener file number).1
  | .clear, _ => .none

def answers : List (Edit L) → Bindings L → List Answer
  | [], _ => []
  | e :: edits, b => e.answer b :: answers edits (e.apply b)

def Edit.isBind : Edit L → Bool
  | .bind .. => true
  | _ => false

/-- The table holds the rows, and lists no path that has none. -/
structure Mirrors (b : Bindings L) (r : Rows L) : Prop where
  next : b.next = r.made + 1
  of : ∀ file, b.of file = (r.of file).map Row.binding
  tight : ∀ p ∈ b.table, p.2 ≠ []
  given : ∀ x ∈ r.rows, x.number ≤ r.made
  increasing : r.rows.Pairwise fun x y => x.number < y.number

section

variable {b : Bindings L} {r : Rows L} {file : FileId}

theorem tight_insert (tight : ∀ p ∈ b.table, p.2 ≠ []) {xs : List (Binding L)} (h : xs ≠ []) :
    ∀ p ∈ Keyed.insert file xs b.table, p.2 ≠ [] := by
  intro p hp
  rcases Keyed.mem_insert hp with rfl | hp
  · exact h
  · exact tight p hp

theorem tight_erase (tight : ∀ p ∈ b.table, p.2 ≠ []) :
    ∀ p ∈ Keyed.erase file b.table, p.2 ≠ [] :=
  fun p hp => tight p (List.mem_filter.1 hp).1

theorem isBound_iff_count_pos (tight : ∀ p ∈ b.table, p.2 ≠ []) :
    b.isBound file = true ↔ 0 < b.count file := by
  rw [isBound, count, of]
  cases h : b.table.lookup file with
  | none => simp
  | some xs =>
    have some : xs ≠ [] := tight (file, xs) (Keyed.mem_of_lookup h)
    simpa using List.length_pos_of_ne_nil some

namespace Rows

theorem of_keep (p : Row L → Bool) (file : FileId) : (r.keep p).of file = (r.of file).filter p := by
  simp only [keep, of, List.filter_filter, Bool.and_comm]

theorem of_append (x : Row L) (n : Nat) (file : FileId) :
    (Rows.mk (r.rows ++ [x]) n).of file = r.of file ++ if x.file = file then [x] else [] := by
  simp only [of, List.filter_append, List.filter_singleton, Bool.cond_decide]

theorem file_of_mem {x : Row L} (h : x ∈ r.of file) : x.file = file := by
  simpa using (List.mem_filter.1 h).2

end Rows

namespace Mirrors

theorem empty : Mirrors ({} : Bindings L) ({} : Rows L) where
  next := rfl
  of _ := rfl
  tight _ h := nomatch h
  given _ h := nomatch h
  increasing := .nil

variable (h : Mirrors b r)
include h

theorem count_eq (file : FileId) : b.count file = (r.of file).length := by
  rw [count, h.of, List.length_map]

theorem holds_eq (file : FileId) (number : Nat) :
    b.holds file number = r.rows.any fun x => x.file = file ∧ x.number = number := by
  rw [holds, h.of, List.any_map, Rows.of, List.any_filter]
  congr 1
  funext x
  apply Bool.eq_iff_iff.2
  simp [Row.binding]

theorem keep {b' : Bindings L} {p : Row L → Bool} (next : b'.next = b.next)
    (of : ∀ file, b'.of file = ((r.of file).filter p).map Row.binding)
    (tight : ∀ p ∈ b'.table, p.2 ≠ []) : Mirrors b' (r.keep p) where
  next := next.trans h.next
  of file := by rw [of, Rows.of_keep]
  tight := tight
  given x hx := h.given x (List.mem_filter.1 hx).1
  increasing := h.increasing.filter p

theorem bind (file : FileId) (l : L) :
    Mirrors (b.bind file l).2 (Rows.apply (.bind file l) r).2 where
  next := congrArg (· + 1) h.next
  of other := by
    rw [Rows.apply, Rows.of_append, List.map_append]
    by_cases same : file = other
    · subst same
      rw [of_bind_self, h.of, h.next, if_pos rfl]
      rfl
    · rw [of_bind_ne b (Ne.symm same), h.of, if_neg same]
      exact (List.append_nil _).symm
  tight := tight_insert h.tight (List.append_ne_nil_of_right_ne_nil _ (List.cons_ne_nil _ _))
  given x hx := by
    rcases List.mem_append.1 hx with hx | hx
    · exact Nat.le_succ_of_le (h.given x hx)
    · rw [List.mem_singleton.1 hx]
      exact Nat.le_refl _
  increasing := by
    refine List.pairwise_append.2 ⟨h.increasing, List.pairwise_singleton _ _, ?_⟩
    intro x hx y hy
    rw [List.mem_singleton.1 hy]
    exact Nat.lt_succ_of_le (h.given x hx)

theorem unbind (file : FileId) : Mirrors (b.unbind file).2 (Rows.apply (.unbind file) r).2 := by
  refine h.keep rfl ?_ (tight_erase h.tight)
  intro other
  rw [of_unbind, h.of]
  by_cases same : other = file
  · subst same
    have none : (r.of other).filter (fun x => x.file ≠ other) = [] :=
      List.filter_eq_nil_iff.2 fun x hx => by simp [Rows.file_of_mem hx]
    rw [none, if_pos rfl]
    rfl
  · have all : (r.of other).filter (fun x => x.file ≠ file) = r.of other :=
      List.filter_eq_self.2 fun x hx => by simp [Rows.file_of_mem hx, same]
    rw [all, if_neg same]

theorem unbindListener (file : FileId) (number : Nat) :
    Mirrors (b.unbindListener file number).2 (Rows.apply (.unbindListener file number) r).2 := by
  refine h.keep rfl ?_ ?_
  · intro other
    rw [of_unbindListener]
    by_cases same : other = file
    · subst same
      rw [if_pos rfl, h.of, List.filter_map]
      congr 1
      apply List.filter_congr
      intro x hx
      apply Bool.eq_iff_iff.2
      simp [Rows.file_of_mem hx, Row.binding]
    · have all : (r.of other).filter (fun x => ¬(x.file = file ∧ x.number = number)) = r.of other :=
        List.filter_eq_self.2 fun x hx => by simp [Rows.file_of_mem hx, same]
      rw [all, if_neg same, h.of]
  · rw [Bindings.unbindListener]
    dsimp only
    split
    · exact tight_erase h.tight
    · next left => exact tight_insert h.tight fun none => left (List.isEmpty_iff.2 none)

theorem clear : Mirrors b.clear (Rows.apply .clear r).2 := by
  refine h.keep rfl ?_ fun _ hp => nomatch hp
  intro file
  rw [of_clear, List.filter_false]
  rfl

theorem apply (e : Edit L) : e.answer b = (Rows.apply e r).1 ∧
    Mirrors (e.apply b) (Rows.apply e r).2 := by
  cases e with
  | bind file l => exact ⟨congrArg Answer.number h.next, h.bind file l⟩
  | unbind file => exact ⟨congrArg Answer.count (h.count_eq file), h.unbind file⟩
  | unbindListener file number =>
    exact ⟨congrArg Answer.found (h.holds_eq file number), h.unbindListener file number⟩
  | clear => exact ⟨rfl, h.clear⟩

theorem edit (edits : List (Edit L)) : answers edits b = Rows.answers edits r ∧
    Mirrors (b.edit edits) (r.edit edits) := by
  induction edits generalizing b r with
  | nil => exact ⟨rfl, h⟩
  | cons e edits ih =>
    obtain ⟨answer, next⟩ := h.apply e
    obtain ⟨later, last⟩ := ih next
    exact ⟨List.cons_eq_cons.2 ⟨answer, later⟩, last⟩

end Mirrors

end

theorem Rows.numbers_answers (edits : List (Edit L)) (r : Rows L) :
    (Rows.answers edits r).filterMap Answer.number? =
      List.range' (r.made + 1) (edits.countP Edit.isBind) := by
  induction edits generalizing r with
  | nil => rfl
  | cons e edits ih =>
    cases e with
    | bind file l =>
      rw [List.countP_cons_of_pos rfl, List.range'_succ]
      exact congrArg (_ :: ·) (ih _)
    | _ => exact ih _

/-- Whatever was bound and unbound, the answers were those of the list of rows, and each path has
just its rows in their order. So numbers are never given out twice, no two bindings share one, and
a path is listed only while it has a binding. -/
theorem faithful_to_rows (edits : List (Edit L)) :
    let b := ({} : Bindings L).edit edits
    let r := ({} : Rows L).edit edits
    answers edits {} = Rows.answers edits {} ∧
    (answers edits ({} : Bindings L)).filterMap Answer.number? =
      List.range' 1 (edits.countP Edit.isBind) ∧
    (∀ file, b.of file = (r.of file).map Row.binding ∧ b.count file = (r.of file).length ∧
      (b.isBound file = true ↔ 0 < b.count file)) ∧
    (∀ p ∈ b.table, p.2 ≠ []) ∧
    (∀ file, (b.of file).Pairwise fun x y => x.number < y.number) ∧
    (∀ file other, ∀ x ∈ b.of file, ∀ y ∈ b.of other, x.number = y.number → file = other ∧ x = y) ∧
    ∀ file other number, other ≠ file →
      (b.unbindListener file number).2.of other = b.of other := by
  intro b r
  obtain ⟨same, mirrors⟩ := Mirrors.empty.edit edits
  refine ⟨same, ?_, ?_, mirrors.tight, ?_, ?_, ?_⟩
  · rw [same, Rows.numbers_answers]
  · exact fun file => ⟨mirrors.of file, mirrors.count_eq file, isBound_iff_count_pos mirrors.tight⟩
  · intro file
    rw [mirrors.of, List.pairwise_map]
    exact mirrors.increasing.filter _
  · intro file other x hx y hy number
    rw [mirrors.of] at hx hy
    obtain ⟨u, hu, rfl⟩ := List.mem_map.1 hx
    obtain ⟨v, hv, rfl⟩ := List.mem_map.1 hy
    have distinct : (r.rows.map Row.number).Nodup :=
      List.pairwise_map.2 (mirrors.increasing.imp Nat.ne_of_lt)
    have row : u = v := List.inj_on_of_nodup_map distinct (List.mem_filter.1 hu).1
      (List.mem_filter.1 hv).1 number
    subst row
    exact ⟨(Rows.file_of_mem hu).symm.trans (Rows.file_of_mem hv), rfl⟩
  · intro file other number different
    rw [of_unbindListener, if_neg different]

end PathWatch.Bindings
