import PathWatch.Proofs.Memory.Operations
import PathWatch.Proofs.Memory.Represents

/-! A table acts as a tree of named files and folders, though nothing but the texts of its keys says
what lies where. Whatever is done, it represents the store to which the same is done. -/
namespace PathWatch.Memory

def Op.applyTo : Op → Table → Table
  | .write path bytes, t => (t.write path bytes).2
  | .createFolder path, t => (t.createFolder path).2
  | .remove path, t => (t.remove path).2
  | .touch path, t => (t.touch path).2
  | .setFailing path failing, t => t.setFailing path failing

namespace Table

def run (ops : List Op) (t : Table) : Table := ops.foldl (fun t op => op.applyTo t) t

def FolderAt (t : Table) (key : String) : Prop := ∃ m, t.node? key = some ⟨.folder, m⟩

/-- The table read as a tree: what there is at a path of names. -/
def content? (t : Table) : Contents := fun p =>
  if Path.ofText p.text = p then (t.node? p.text).map (·.content) else none

namespace Represents

variable {t : Table} {s : Store}

theorem apply (h : Represents t s) (tree : s.Tree) (op : Op) :
    Represents (op.applyTo t) (op.apply s) := by
  cases op with
  | write path bytes => exact (h.write bytes).left
  | createFolder path => exact (h.createFolder tree).left
  | remove path => exact h.remove.left
  | touch path => exact h.touch.left
  | setFailing path failing => exact h.setFailing failing

theorem run (h : Represents t s) (tree : s.Tree) (ops : List Op) :
    Represents (t.run ops) (s.run ops) := by
  induction ops generalizing t s with
  | nil => exact h
  | cons op ops ih => exact ih (h.apply tree op) (Store.apply_change op tree []).tree

theorem content?_eq (h : Represents t s) : t.content? = s.content? := by
  funext p
  rw [content?, Store.content?]
  split
  · next normal =>
    have hp : p.IsNormal := normal ▸ Path.isNormal_ofText p.text
    rw [h.node p hp]
  · next other =>
    cases hn : s.node? p with
    | none => rfl
    | some n => exact absurd (Path.ofText_text (h.normal p n hn)) other

theorem performs {can : Prop} {made : Contents} {r : Except FsError Unit × Table}
    {r' : Except FsError Unit × Store} (h : Represents t s) (agree : Agree r r')
    (performs : Performs Store.content? can made s r') : Performs content? can made t r where
  succeeds := by rw [agree.given, performs.succeeds]
  after possible := by rw [agree.left.content?_eq, performs.after possible]
  still cannot := (performs.still cannot ▸ agree.left).unique h

theorem folderAt_iff (h : Represents t s) {p : Path} (hp : p.IsNormal) :
    t.FolderAt p.text ↔ s.FolderAt p := by
  rw [FolderAt, h.node p hp, Store.FolderAt]

theorem normalForm_mem_keys (h : Represents t s) (text : String) :
    Path.normalForm text ∈ Keyed.keys t.nodes ↔ s.contains (.ofText text) = true := by
  rw [← Keyed.isSome_lookup_iff, Store.contains, ← h.node _ (Path.isNormal_ofText text)]
  rfl

theorem keys_spell_tree (h : Represents t s) (tree : s.Tree) :
    let keys := Keyed.keys t.nodes
    (∀ k ∈ keys, Path.normalForm k = k) ∧ t.FolderAt "/" ∧
      ∀ k ∈ keys, k ≠ "/" → ∃ parent ∈ keys, Key.parent? k = some parent ∧ t.FolderAt parent := by
  refine ⟨?_, (h.folderAt_iff (p := []) (fun _ => nofun)).2 tree.root, ?_⟩
  · intro k hk
    obtain ⟨q, n, hn, rfl⟩ := h.mem_keys.1 hk
    exact congrArg Path.text (Path.ofText_text (h.normal q n hn))
  · intro k hk named
    obtain ⟨q, n, hn, rfl⟩ := h.mem_keys.1 hk
    have normal := h.normal q n hn
    obtain ⟨parent, name, rfl⟩ : ∃ (parent : Path) (name : String), q = parent ++ [name] := by
      rcases List.eq_nil_or_concat' q with rfl | split
      · exact absurd rfl named
      · exact split
    obtain ⟨m, hm⟩ := tree.parent parent name n hn
    exact ⟨parent.text, h.mem_keys.2 ⟨parent, _, hm, rfl⟩,
      Key.parent?_append (normal name (by simp)) parent,
      (h.folderAt_iff (h.normal parent _ hm)).2 ⟨m, hm⟩⟩

theorem listed_in_byte_order (h : Represents t s) {p : Path} (hp : p.IsNormal) :
    (t.listed p.text).Pairwise fun c d =>
      Text.utf8Bytes (Key.name c) < Text.utf8Bytes (Key.name d) := by
  have named {c : String} (hc : c ∈ t.listed p.text) :
      ∃ name, IsSegment name.toList ∧ c = Path.text (p ++ [name]) := by
    obtain ⟨there, child⟩ := (h.mem_listed hp).1 hc
    obtain ⟨q, n, hn, rfl⟩ := h.mem_keys.1 there
    have normal := h.normal q n hn
    obtain ⟨name, rfl⟩ := (Key.parent?_text_eq_some_iff hp normal).1 child
    exact ⟨name, normal name (by simp), rfl⟩
  refine (h.listed_sorted p.text).imp_of_mem ?_
  intro c d hc hd less
  obtain ⟨name, segment, rfl⟩ := named hc
  obtain ⟨name', segment', rfl⟩ := named hd
  rw [Key.name_append segment, Key.name_append segment', Text.utf8Bytes_lt_iff]
  exact (Path.text_lt_text_iff hp).1 less

end Represents

theorem children_of_folder {t : Table} {key : String} (folder : t.FolderAt key)
    (ok : key ∉ t.failing) : t.children key = .ok (t.listed key) := by
  obtain ⟨m, hm⟩ := folder
  simp [children, look, ok, hm, bind, Except.bind, pure, Except.pure, listed]

theorem represents_run (ops : List Op) : Represents (empty.run ops) (Store.empty.run ops) :=
  Represents.empty.run Store.tree_empty ops

/-- After the same operations a table and a store do the same and answer all questions alike. -/
theorem acts_as_store (ops : List Op) (text : String) :
    let t := empty.run ops
    let s := Store.empty.run ops
    let p := Path.ofText text
    (∀ bytes, Agree (t.write text bytes) (s.write p bytes)) ∧
      Agree (t.createFolder text) (s.createFolder p) ∧ Agree (t.remove text) (s.remove p) ∧
      Agree (t.touch text) (s.touch p) ∧
      ∀ failing, Represents (t.setFailing text failing) (s.setFailing p failing) := by
  intro t s p
  have h : Represents t s := represents_run ops
  exact ⟨h.write, h.createFolder (Store.tree_run ops), h.remove, h.touch, h.setFailing⟩

theorem answers_as_store (ops : List Op) {p : Path} (hp : p.IsNormal) :
    let t := empty.run ops
    let s := Store.empty.run ops
    t.contains p.text = s.contains p ∧ t.read? p.text = s.read? p ∧
      t.isPresent p.text = s.isPresent p ∧ t.isFolder p.text = s.isFolder p ∧
      t.modified p.text = s.modified p ∧ t.size p.text = s.size p ∧
      t.children p.text = (s.children p).map (List.map Path.text) := by
  intro t s
  have h : Represents t s := represents_run ops
  have contains := h.contains p.text
  have read := h.read? p.text
  rw [Path.ofText_text hp] at contains read
  exact ⟨contains, read, h.isPresent hp, h.isFolder hp, h.modified hp, h.size hp,
    h.children (Store.ordered_run ops) hp⟩

/-- Keys are in the order of their bytes and in normal form, there is a folder at the root and above
every other key. Files and folders are put, made, taken away and touched as on the tree that the keys
spell, and the children of a folder are listed in the order of the bytes of their names. -/
theorem acts_as_tree (ops : List Op) :
    let t := empty.run ops
    let keys := Keyed.keys t.nodes
    (keys.Pairwise (fun k l => Text.utf8Bytes k < Text.utf8Bytes l) ∧
      (∀ k ∈ keys, Path.normalForm k = k) ∧ t.FolderAt "/" ∧
      ∀ k ∈ keys, k ≠ "/" → ∃ parent ∈ keys, Key.parent? k = some parent ∧ t.FolderAt parent) ∧
    ∀ text, let p := Path.ofText text
      (∀ bytes, Performs content? (t.content? p ≠ some .folder ∧ ¬ t.content?.Blocked p)
        (t.content?.put p (.file bytes)) t (t.write text bytes)) ∧
      Performs content? ((∀ bytes, t.content? p ≠ some (.file bytes)) ∧ ¬ t.content?.Blocked p)
        (t.content?.put p .folder) t (t.createFolder text) ∧
      (((t.remove text).1 = true ↔ p ≠ [] ∧ Path.normalForm text ∈ keys) ∧
        ((t.remove text).1 = true → (t.remove text).2.content? = t.content?.without p) ∧
        ((t.remove text).1 = false → (t.remove text).2 = t)) ∧
      (((t.touch text).1 = true ↔ Path.normalForm text ∈ keys) ∧
        (t.touch text).2.content? = t.content?) ∧
      (t.FolderAt p.text → p.text ∉ t.failing → ∃ cs, t.children p.text = .ok cs ∧
        (∀ c, c ∈ cs ↔ c ∈ keys ∧ Key.parent? c = some p.text) ∧
        cs.Pairwise fun c d => Text.utf8Bytes (Key.name c) < Text.utf8Bytes (Key.name d)) := by
  intro t keys
  have tree := Store.tree_run ops
  have h : Represents t (Store.empty.run ops) := represents_run ops
  generalize Store.empty.run ops = s at tree h
  have sorted : keys.Pairwise fun k l => Text.utf8Bytes k < Text.utf8Bytes l :=
    (List.pairwise_map.2 h.ordered).imp Text.utf8Bytes_lt_iff.2
  refine ⟨⟨sorted, h.keys_spell_tree tree⟩, ?_⟩
  intro text p
  have normal : p.IsNormal := Path.isNormal_ofText text
  rw [h.content?_eq, h.normalForm_mem_keys text]
  refine ⟨fun bytes => h.performs (h.write bytes) (Store.write_performs tree p bytes),
    h.performs (h.createFolder tree) (Store.createFolder_performs tree p), ?_, ?_, ?_⟩
  · have agree : Agree (t.remove text) (s.remove p) := h.remove
    obtain ⟨given, left⟩ := agree
    obtain ⟨removes, removed, stays⟩ := Store.remove_content s p
    rw [given, left.content?_eq]
    exact ⟨removes, removed, fun still => (stays still ▸ left).unique h⟩
  · have agree : Agree (t.touch text) (s.touch p) := h.touch
    obtain ⟨given, left⟩ := agree
    obtain ⟨there, same⟩ := Store.touch_content s p
    rw [given, left.content?_eq]
    exact ⟨by rw [there], same⟩
  · intro folder ok
    exact ⟨t.listed p.text, children_of_folder folder ok, fun _ => h.mem_listed normal,
      h.listed_in_byte_order normal⟩

end Table

end PathWatch.Memory
