import PathWatch.Proofs.Memory.Order

/-! A store acts as a tree of named files and folders: what an operation does is told
by what there is at each path before it and after it. -/
namespace PathWatch.Memory

/-- What there is at each path, without the times. -/
abbrev Contents := Path → Option Content

theorem Path.pairwise_ancestors (p : Path) : p.ancestors.Pairwise fun a b => a <+: b ∧ a ≠ b := by
  induction p with
  | nil => exact .nil
  | cons name p ih =>
    rw [ancestors, List.pairwise_cons, List.pairwise_map]
    refine ⟨?_, ih.imp ?_⟩
    · intro b hb
      obtain ⟨a, _, rfl⟩ := List.mem_map.1 hb
      exact ⟨List.nil_prefix, (List.cons_ne_nil name a).symm⟩
    · intro a b hab
      exact ⟨List.cons_prefix_cons.2 ⟨rfl, hab.1⟩, fun same => hab.2 (List.cons.inj same).2⟩

namespace Contents

def Blocked (t : Contents) (p : Path) : Prop :=
  ∃ (a : Path) (bytes : ByteArray), a <+: p ∧ a ≠ p ∧ t a = some (.file bytes)

def put (p : Path) (content : Content) (t : Contents) : Contents := fun q =>
  if q = p then some content else if q <+: p then some .folder else t q

def without (p : Path) (t : Contents) : Contents := fun q => if p <+: q then none else t q

end Contents

/-- An operation succeeds when it can be carried out, and otherwise nothing happens at all. -/
structure Performs {σ : Type} (content? : σ → Contents) (can : Prop) (made : Contents) (s : σ)
    (r : Except FsError Unit × σ) : Prop where
  succeeds : r.1 = .ok () ↔ can
  after : can → content? r.2 = made
  still : ¬ can → r.2 = s

section

variable {σ : Type} {content? : σ → Contents} {can : Prop} {made : Contents} {s : σ}

theorem Performs.refused {e : FsError} (cannot : ¬ can) :
    Performs content? can made s (.error e, s) :=
  ⟨iff_of_false (by simp) cannot, fun possible => absurd possible cannot, fun _ => rfl⟩

theorem Performs.done {t : σ} (possible : can) (content : content? t = made) :
    Performs content? can made s (.ok (), t) :=
  ⟨iff_of_true rfl possible, fun _ => content, fun cannot => absurd possible cannot⟩

end

namespace Store

def content? (s : Store) : Contents := fun p => (s.node? p).map (·.content)

variable {s : Store} {p q : Path}

theorem content?_eq_some_iff {content : Content} :
    s.content? p = some content ↔ ∃ m, s.node? p = some ⟨content, m⟩ := by
  rw [content?, Option.map_eq_some_iff]
  constructor
  · intro h
    obtain ⟨⟨_, m⟩, hn, rfl⟩ := h
    exact ⟨m, hn⟩
  · intro h
    obtain ⟨m, hn⟩ := h
    exact ⟨_, hn, rfl⟩

theorem content?_eq_none_iff : s.content? p = none ↔ s.node? p = none := Option.map_eq_none_iff

theorem content?_stamp (p : Path) (content : Content) (s : Store) (q : Path) :
    (s.stamp p content).content? q = if q = p then some content else s.content? q := by
  rw [content?, node?_stamp]
  split <;> rfl

theorem content?_restamp (p : Path) (s : Store) : (s.restamp p).content? = s.content? := by
  funext q
  rw [content?, node?_restamp]
  split
  · next same =>
    rw [same, Option.map_map]
    rfl
  · rfl

theorem content?_restampParent (p : Path) (s : Store) :
    (s.restampParent p).content? = s.content? := by
  rw [restampParent]
  split
  · exact content?_restamp _ s
  · rfl

theorem content?_pruned (p : Path) (s : Store) : (s.pruned p).content? = s.content?.without p := by
  funext q
  rw [content?, node?_pruned, Contents.without]
  split <;> rfl

theorem ensureFolders_content {ps : List Path}
    (clear : ∀ a ∈ ps, ∀ bytes, s.content? a ≠ some (.file bytes)) :
    (ensureFolders ps s).1 = .ok () ∧ ∀ q, (ensureFolders ps s).2.content? q =
      if q ∈ ps then some .folder else s.content? q := by
  induction ps generalizing s with
  | nil => exact ⟨rfl, fun q => (if_neg List.not_mem_nil).symm⟩
  | cons p ps ih =>
    have clear' : ∀ a ∈ ps, ∀ bytes, s.content? a ≠ some (.file bytes) :=
      fun a ha => clear a (List.mem_cons_of_mem p ha)
    rw [ensureFolders]
    split
    · next m hm =>
      obtain ⟨ok, made⟩ := ih clear'
      refine ⟨ok, fun q => ?_⟩
      have here : s.content? p = some .folder := content?_eq_some_iff.2 ⟨m, hm⟩
      rw [made]
      by_cases same : q = p
      · subst same
        simp [here]
      · simp [same]
    · next bytes m hm =>
      exact absurd (content?_eq_some_iff.2 ⟨m, hm⟩) (clear p List.mem_cons_self bytes)
    · have stamped : ∀ a ∈ ps, ∀ bytes, (s.stamp p .folder).content? a ≠ some (.file bytes) := by
        intro a ha bytes
        rw [content?_stamp]
        split
        · simp
        · exact clear' a ha bytes
      obtain ⟨ok, made⟩ := ih stamped
      refine ⟨ok, fun q => ?_⟩
      rw [made, content?_stamp]
      by_cases same : q = p <;> simp [same]

/-- Above a file everything is there already, so it is met before anything is made. -/
theorem ensureFolders_blocked (h : s.Tree) {ps : List Path}
    (sorted : ps.Pairwise fun a b => a <+: b ∧ a ≠ b) {a : Path} (ha : a ∈ ps) {bytes : ByteArray}
    (file : s.content? a = some (.file bytes)) :
    ensureFolders ps s = (.error (.notAFolder a.idText), s) := by
  obtain ⟨m, hm⟩ := content?_eq_some_iff.1 file
  induction ps with
  | nil => cases ha
  | cons p ps ih =>
    obtain ⟨first, sorted⟩ := List.pairwise_cons.1 sorted
    rcases List.mem_cons.1 ha with rfl | ha
    · rw [ensureFolders, hm]
    · obtain ⟨above, ne⟩ := first a ha
      obtain ⟨m', hp⟩ := h.folder_above hm above ne
      rw [ensureFolders, hp]
      exact ih sorted ha

theorem put_blocked (h : s.Tree) {a : Path} (above : a <+: p) (ne : a ≠ p) {bytes : ByteArray}
    (file : s.content? a = some (.file bytes)) (content : Content) :
    s.put p content = (.error (.notAFolder a.idText), s) := by
  rw [put, ensureFolders_blocked h p.pairwise_ancestors (Path.mem_ancestors.2 ⟨above, ne⟩) file]

theorem put_performs (h : s.Tree) (p : Path) (content : Content) :
    Performs content? (¬ s.content?.Blocked p) (s.content?.put p content) s (s.put p content) := by
  by_cases blocked : s.content?.Blocked p
  · obtain ⟨a, bytes, above, ne, file⟩ := blocked
    have cannot : ¬ ¬ s.content?.Blocked p := fun clear => clear ⟨a, bytes, above, ne, file⟩
    rw [put_blocked h above ne file]
    exact .refused cannot
  · have clear : ∀ a ∈ p.ancestors, ∀ bytes, s.content? a ≠ some (.file bytes) := by
      intro a ha bytes file
      obtain ⟨above, ne⟩ := Path.mem_ancestors.1 ha
      exact blocked ⟨a, bytes, above, ne, file⟩
    obtain ⟨ok, made⟩ := ensureFolders_content clear
    rw [put]
    generalize ensureFolders p.ancestors s = r at ok made
    obtain ⟨_, t⟩ := r
    cases ok
    have stamped : (t.stamp p content).content? = s.content?.put p content := by
      funext q
      rw [content?_stamp, made, Contents.put]
      by_cases same : q = p
      · rw [if_pos same, if_pos same]
      · rw [if_neg same, if_neg same]
        simp only [Path.mem_ancestors, same, ne_eq, not_false_eq_true, and_true]
    refine .done blocked ?_
    split
    · exact (content?_restampParent p _).trans stamped
    · exact stamped

theorem write_performs (h : s.Tree) (p : Path) (bytes : ByteArray) :
    Performs content? (s.content? p ≠ some .folder ∧ ¬ s.content?.Blocked p)
      (s.content?.put p (.file bytes)) s (s.write p bytes) := by
  rw [write]
  split
  · next m hm =>
    have cannot : ¬ (s.content? p ≠ some .folder ∧ ¬ s.content?.Blocked p) :=
      fun can => can.1 (content?_eq_some_iff.2 ⟨m, hm⟩)
    exact .refused cannot
  · next hn =>
    have fresh : s.content? p ≠ some .folder := by
      intro folder
      obtain ⟨m, hm⟩ := content?_eq_some_iff.1 folder
      exact hn m hm
    rw [and_iff_right fresh]
    exact put_performs h p _

theorem Tree.put_folder (h : s.Tree) (folder : s.content? p = some .folder) :
    s.content?.put p .folder = s.content? ∧ ¬ s.content?.Blocked p := by
  obtain ⟨m, hm⟩ := content?_eq_some_iff.1 folder
  have above {a : Path} (ha : a <+: p) (ne : a ≠ p) : s.content? a = some .folder := by
    obtain ⟨m', hm'⟩ := h.folder_above hm ha ne
    exact content?_eq_some_iff.2 ⟨m', hm'⟩
  constructor
  · funext q
    rw [Contents.put]
    split
    · next same => rw [same, folder]
    · next ne =>
      split
      · next hq => exact (above hq ne).symm
      · rfl
  · intro blocked
    obtain ⟨a, bytes, ha, ne, file⟩ := blocked
    rw [above ha ne] at file
    cases file

theorem createFolder_performs (h : s.Tree) (p : Path) :
    Performs content? ((∀ bytes, s.content? p ≠ some (.file bytes)) ∧ ¬ s.content?.Blocked p)
      (s.content?.put p .folder) s (s.createFolder p) := by
  rw [createFolder]
  split
  · next m hm =>
    have folder : s.content? p = some .folder := content?_eq_some_iff.2 ⟨m, hm⟩
    obtain ⟨same, clear⟩ := h.put_folder folder
    have can : (∀ bytes, s.content? p ≠ some (.file bytes)) ∧ ¬ s.content?.Blocked p := by
      refine ⟨fun bytes file => ?_, clear⟩
      rw [folder] at file
      cases file
    exact .done can same.symm
  · next bytes m hm =>
    have cannot : ¬ ((∀ bytes, s.content? p ≠ some (.file bytes)) ∧ ¬ s.content?.Blocked p) :=
      fun can => can.1 bytes (content?_eq_some_iff.2 ⟨m, hm⟩)
    exact .refused cannot
  · next hn =>
    have fresh : ∀ bytes, s.content? p ≠ some (.file bytes) := by
      intro bytes file
      rw [content?_eq_none_iff.2 hn] at file
      cases file
    rw [and_iff_right fresh]
    exact put_performs h p _

theorem remove_content (s : Store) (p : Path) :
    ((s.remove p).1 = true ↔ p ≠ [] ∧ s.contains p = true) ∧
      ((s.remove p).1 = true → (s.remove p).2.content? = s.content?.without p) ∧
      ((s.remove p).1 = false → (s.remove p).2 = s) := by
  rw [remove]
  split
  · next stays =>
    refine ⟨iff_of_false Bool.false_ne_true ?_, fun goes => absurd goes Bool.false_ne_true,
      fun _ => rfl⟩
    intro can
    simp [can.1, can.2] at stays
  · next goes =>
    rw [Bool.or_eq_true, not_or] at goes
    have pruned : ((s.pruned p).restampParent p).content? = s.content?.without p := by
      rw [content?_restampParent, content?_pruned]
    refine ⟨iff_of_true rfl ?_, fun _ => pruned, fun stays => absurd stays (by simp)⟩
    simpa using goes

theorem touch_content (s : Store) (p : Path) :
    (s.touch p).1 = s.contains p ∧ (s.touch p).2.content? = s.content? := by
  rw [touch]
  split
  · next there => exact ⟨there.symm, content?_restamp p s⟩
  · next absent => exact ⟨(Bool.eq_false_iff.2 absent).symm, rfl⟩

end Store

end PathWatch.Memory
