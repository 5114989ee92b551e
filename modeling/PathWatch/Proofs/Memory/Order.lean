import PathWatch.Proofs.Memory.Capture
import PathWatch.Proofs.Memory.Journal
import PathWatch.Proofs.Text.ByteOrder

/-! The nodes of a store stay in the order of their paths, each path once, so the
children of a path come in the order of their names. -/
namespace PathWatch.Memory

theorem append_lt_append_iff {α : Type} [LT α] [Std.Irrefl (α := α) (· < ·)]
    {front as bs : List α} : front ++ as < front ++ bs ↔ as < bs := by
  induction front with
  | nil => rfl
  | cons a front ih =>
    have irrefl : ¬ a < a := Std.Irrefl.irrefl a
    rw [List.cons_append, List.cons_append, List.cons_lt_cons_iff, ih]
    simp [irrefl]

theorem Path.append_lt_append_iff {p : Path} {name name' : String} :
    p ++ [name] < p ++ [name'] ↔ name < name' := by
  rw [Memory.append_lt_append_iff, List.cons_lt_cons_iff]
  simp

namespace Store

variable {s : Store}

def Ordered (s : Store) : Prop := Keyed.Ordered s.nodes

theorem lasting_ordered : Lasting Ordered fun _ => True where
  stamp p _ _ h := Keyed.ordered_insert p _ h
  tick _ h := h
  pruned _ _ _ h := List.Pairwise.filter _ h
  failing _ _ h := h

theorem ordered_run (ops : List Op) : (empty.run ops).Ordered :=
  lasting_ordered.run (fun _ => trivial) ops (lasting_ordered.stamp [] .folder ⟨[], 0, []⟩ .nil)

theorem Ordered.listed_sorted (h : s.Ordered) (p : Path) :
    (s.listed p).Pairwise fun c d => c.name < d.name := by
  have sorted : (s.listed p).Pairwise (· < ·) := (List.pairwise_map.2 h).filter _
  refine sorted.imp_of_mem ?_
  intro c d hc hd less
  obtain ⟨_, name, rfl⟩ := mem_listed.1 hc
  obtain ⟨_, name', rfl⟩ := mem_listed.1 hd
  rw [Path.name_append, Path.name_append]
  exact Path.append_lt_append_iff.1 less

end Store

end PathWatch.Memory
