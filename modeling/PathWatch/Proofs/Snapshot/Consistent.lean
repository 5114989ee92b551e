import PathWatch.Proofs.Snapshot.Live

/-! In a consistent snapshot there is nothing dead: only the root can be missing, and
what has children is a folder. -/
namespace PathWatch.Snapshot

theorem allConsistent_iff {cs : List (String × Snapshot)} :
    Consistent.AllConsistent cs ↔ ∀ c ∈ cs, c.2.present = true ∧ c.2.Consistent := by
  induction cs with
  | nil => simp [Consistent.AllConsistent]
  | cons c cs ih =>
    obtain ⟨name, s⟩ := c
    rw [Consistent.AllConsistent, ih, List.forall_mem_cons, and_assoc]

theorem consistent_folder {id : FileId} {t : Time} {cs : List (String × Snapshot)}
    (ordered : Keyed.Ordered cs) (children : ∀ c ∈ cs, c.2.present = true ∧ c.2.Consistent) :
    (folder id t cs).Consistent := by
  rw [folder, Consistent]
  exact ⟨by simp, fun _ => ⟨rfl, by simp, fun _ => rfl⟩, ordered, allConsistent_iff.2 children⟩

namespace Consistent

variable {s t : Snapshot} {name : String} {q : List String}

theorem contents_eq (h : s.Consistent) : s.contents = s.children := by
  obtain ⟨f, cs⟩ := s
  obtain ⟨gone, there, _⟩ := h
  by_cases folder : f.present = true ∧ f.isFolder = true
  · exact contents_of_folder folder.1 folder.2
  · rw [contents_eq_nil (s := .node f cs) folder]
    cases hp : f.present with
    | false => exact (gone hp).2.2.2.symm
    | true =>
      have file : f.isFolder = false := Bool.eq_false_iff.2 fun hf => folder ⟨hp, hf⟩
      exact ((there hp).2.1 file).symm

theorem of_mem (h : s.Consistent) (ht : (name, t) ∈ s.contents) :
    t.present = true ∧ t.Consistent := by
  rw [h.contents_eq] at ht
  obtain ⟨f, cs⟩ := s
  exact allConsistent_iff.1 h.2.2.2 (name, t) ht

theorem at?_eq (h : s.Consistent) (hp : s.present = true) (q : List String) :
    at? q s = descend? q s := by
  induction q generalizing s with
  | nil => exact if_pos hp
  | cons name q ih =>
    rw [at?_cons, descend?, child?, h.contents_eq]
    refine Option.bind_congr fun t ht => ?_
    have child := h.of_mem (h.contents_eq ▸ Keyed.mem_of_lookup ht)
    exact ih child.2 child.1

theorem at?_cons_eq (h : s.Consistent) (name : String) (q : List String) :
    at? (name :: q) s = descend? (name :: q) s := by
  cases hp : s.present with
  | true => exact h.at?_eq hp _
  | false =>
    have nothing := contents_eq_nil (s := s) (by simp [hp])
    rw [at?_cons, descend?, child?, ← h.contents_eq, nothing, List.lookup_nil]
    rfl

end Consistent

end PathWatch.Snapshot
