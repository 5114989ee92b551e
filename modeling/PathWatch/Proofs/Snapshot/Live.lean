import PathWatch.Proofs.Keyed
import PathWatch.Snapshot

/-! A list of names is live in a snapshot when it leads through existing
folders to an existing node. Whatever else an inconsistent tree holds is dead. -/
namespace PathWatch.Snapshot

/-- Every node on the way exists, and every one before the last is a folder. -/
def Live (s : Snapshot) (q : List String) : Prop :=
  (∃ t, descend? q s = some t) ∧
    (∀ p t, p <+: q → descend? p s = some t → t.present = true) ∧
    ∀ p t, p <+: q → p ≠ q → descend? p s = some t → t.isFolder = true

def at? : List String → Snapshot → Option Snapshot
  | [], s => if s.present then some s else none
  | name :: q, s => (s.contents.lookup name).bind (at? q)

theorem contents_of_folder {s : Snapshot} (hp : s.present = true) (hf : s.isFolder = true) :
    s.contents = s.children := by
  simp [contents, hp, hf]

theorem contents_eq_nil {s : Snapshot} (h : ¬ (s.present = true ∧ s.isFolder = true)) :
    s.contents = [] :=
  if_neg (by simpa using h)

theorem at?_nil (s : Snapshot) : at? [] s = if s.present then some s else none := rfl

theorem at?_cons (name : String) (q : List String) (s : Snapshot) :
    at? (name :: q) s = (s.contents.lookup name).bind (at? q) := rfl

theorem live_nil (s : Snapshot) : s.Live [] ↔ s.present = true := by
  constructor
  · intro h
    exact h.2.1 [] s List.prefix_rfl rfl
  · intro h
    refine ⟨⟨s, rfl⟩, ?_, ?_⟩
    · intro p t hp ht
      rw [List.prefix_nil.1 hp] at ht
      cases ht
      exact h
    · intro p t hp hne
      exact absurd (List.prefix_nil.1 hp) hne

theorem live_cons (name : String) (q : List String) (s : Snapshot) :
    s.Live (name :: q) ↔
      s.present = true ∧ s.isFolder = true ∧ ∃ t, s.child? name = some t ∧ t.Live q := by
  constructor
  · intro h
    obtain ⟨⟨u, hu⟩, hp, hf⟩ := h
    refine ⟨hp [] s (List.nil_prefix) rfl, hf [] s (List.nil_prefix) (by simp) rfl, ?_⟩
    obtain ⟨t, ht, hu⟩ := Option.bind_eq_some_iff.1 hu
    refine ⟨t, ht, ⟨u, hu⟩, ?_, ?_⟩
    · intro p v hpq hv
      exact hp (name :: p) v (List.cons_prefix_cons.2 ⟨rfl, hpq⟩) (by simp [descend?, ht, hv])
    · intro p v hpq hne hv
      exact hf (name :: p) v (List.cons_prefix_cons.2 ⟨rfl, hpq⟩) (by simpa using hne)
        (by simp [descend?, ht, hv])
  · intro h
    obtain ⟨hp, hf, t, ht, ⟨u, hu⟩, hps, hfs⟩ := h
    refine ⟨⟨u, by simp [descend?, ht, hu]⟩, ?_, ?_⟩
    · intro p v hpq hv
      rcases List.prefix_cons_iff.1 hpq with rfl | ⟨r, rfl, hr⟩
      · cases hv
        exact hp
      · exact hps r v hr (by simpa [descend?, ht] using hv)
    · intro p v hpq hne hv
      rcases List.prefix_cons_iff.1 hpq with rfl | ⟨r, rfl, hr⟩
      · cases hv
        exact hf
      · exact hfs r v hr (by simpa using hne) (by simpa [descend?, ht] using hv)

theorem at?_eq_some_iff {q : List String} {s t : Snapshot} :
    at? q s = some t ↔ s.Live q ∧ descend? q s = some t := by
  induction q generalizing s with
  | nil =>
    rw [live_nil, at?_nil]
    by_cases h : s.present <;> simp [h, descend?]
  | cons name q ih =>
    rw [live_cons, at?_cons]
    by_cases h : s.present = true ∧ s.isFolder = true
    · rw [contents_of_folder h.1 h.2]
      cases hc : s.children.lookup name with
      | none => simp [child?, hc]
      | some u => simp [child?, hc, descend?, ih, h.1, h.2]
    · rw [contents_eq_nil h]
      simp only [List.lookup_nil, Option.bind_none, reduceCtorEq, false_iff]
      intro hl
      exact h ⟨hl.1.1, hl.1.2.1⟩

theorem live_iff {q : List String} {s : Snapshot} : s.Live q ↔ ∃ t, at? q s = some t := by
  constructor
  · intro h
    obtain ⟨t, ht⟩ := h.1
    exact ⟨t, at?_eq_some_iff.2 ⟨h, ht⟩⟩
  · intro h
    obtain ⟨t, ht⟩ := h
    exact (at?_eq_some_iff.1 ht).1

theorem at?_eq_none_iff {q : List String} {s : Snapshot} : at? q s = none ↔ ¬ s.Live q := by
  rw [live_iff, Option.eq_none_iff_forall_ne_some]
  simp

theorem descend?_of_at? {q : List String} {s t : Snapshot} (h : at? q s = some t) :
    descend? q s = some t :=
  (at?_eq_some_iff.1 h).2

theorem at?_append (p q : List String) (s : Snapshot) :
    at? (p ++ q) s = (at? p s).bind (at? q) := by
  induction p generalizing s with
  | nil =>
    rw [List.nil_append, at?_nil]
    by_cases h : s.present = true
    · rw [if_pos h, Option.bind_some]
    · rw [if_neg h, Option.bind_none]
      cases q with
      | nil => exact if_neg h
      | cons name q => rw [at?_cons, contents_eq_nil fun both => h both.1, List.lookup_nil]; rfl
  | cons name p ih =>
    rw [List.cons_append, at?_cons, at?_cons, Option.bind_assoc]
    exact congrArg _ (funext ih)

theorem Live.above {p q : List String} {s : Snapshot} (h : s.Live q) (below : p <+: q) :
    s.Live p := by
  obtain ⟨r, rfl⟩ := below
  obtain ⟨t, ht⟩ := live_iff.1 h
  rw [at?_append] at ht
  obtain ⟨u, hu, _⟩ := Option.bind_eq_some_iff.1 ht
  exact live_iff.2 ⟨u, hu⟩

theorem Live.folder_above {p q : List String} {s t : Snapshot} (h : s.Live q) (below : p <+: q)
    (ne : p ≠ q) (ht : descend? p s = some t) : t.isFolder = true :=
  h.2.2 p t below ne ht

end PathWatch.Snapshot
