import Mathlib.Data.List.Chain
import PathWatch.Proofs.Memory.Tree

/-! A journal of operations on a store in memory. It tells from the operations
alone whether a file is still the one that it was: time and size are the same
exactly when nothing has altered it. -/
namespace PathWatch.Memory

inductive Op
  | write (path : String) (bytes : ByteArray)
  | createFolder (path : String)
  | remove (path : String)
  | touch (path : String)
  | setFailing (path : String) (failing : Bool)

namespace Op

def apply : Op → Store → Store
  | .write path bytes, s => (s.write (.ofText path) bytes).2
  | .createFolder path, s => (s.createFolder (.ofText path)).2
  | .remove path, s => (s.remove (.ofText path)).2
  | .touch path, s => (s.touch (.ofText path)).2
  | .setFailing path failing, s => s.setFailing (.ofText path) failing

/-- The file is written or touched, or it is removed with all that is in some folder. -/
def alters (q : Path) : Op → Store → Bool
  | .write path bytes, s => Path.ofText path == q && (s.write (.ofText path) bytes).1.isOk
  | .remove path, s => (Path.ofText path).isPrefixOf q && (s.remove (.ofText path)).1
  | .touch path, s => Path.ofText path == q && (s.touch (.ofText path)).1
  | .createFolder _, _ => false
  | .setFailing _ _, _ => false

end Op

def altered (q : Path) : List Op → Store → Bool
  | [], _ => false
  | op :: ops, s => op.alters q s || altered q ops (op.apply s)

def Op.removes (q : Path) : Op → Store → Bool
  | .remove path, s => (Path.ofText path).isPrefixOf q && (s.remove (.ofText path)).1
  | _, _ => false

def removed (q : Path) : List Op → Store → Bool
  | [], _ => false
  | op :: ops, s => op.removes q s || removed q ops (op.apply s)

theorem Path.isChain_ancestors (p : Path) : p.ancestors.IsChain fun a b => b.parent? = some a := by
  induction p with
  | nil => exact .nil
  | cons name p ih =>
    rw [ancestors, List.isChain_cons, List.isChain_map]
    refine ⟨?_, ih.imp ?_⟩
    · intro q hq
      cases p with
      | nil => cases hq
      | cons m p =>
        cases hq
        rfl
    · intro a b hab
      obtain ⟨m, rfl⟩ := parent?_eq_some_iff.1 hab
      exact parent?_append (name :: a) m

namespace Store

def run (ops : List Op) (s : Store) : Store := ops.foldl (fun s op => op.apply s) s

theorem run_append (ops later : List Op) (s : Store) :
    s.run (ops ++ later) = (s.run ops).run later :=
  List.foldl_append

variable {s t u : Store} {p q : Path}

theorem Advances.renewed (h : Advances s t) {c : Nat} (hc : c ≤ s.clock)
    (hs : ∀ n, s.node? q = some n → c < n.modified) (n : Node) (hn : t.node? q = some n) :
    c < n.modified := by
  rcases h.node q with same | gone | ⟨m, hm, later, _⟩
  · exact hs n (same ▸ hn)
  · rw [gone] at hn
    cases hn
  · rw [hm] at hn
    cases hn
    omega

theorem restampParent_file (hp : ∀ parent, p.parent? = some parent → s.FolderAt parent)
    {b : ByteArray} {m : Nat} (hq : s.node? q = some ⟨.file b, m⟩) :
    (s.restampParent p).node? q = some ⟨.file b, m⟩ := by
  rw [restampParent]
  split
  · next parent e =>
    obtain ⟨m', hf⟩ := hp parent e
    have ne : q ≠ parent := by
      intro h
      rw [h, hf] at hq
      cases hq
    rw [node?_restamp, if_neg ne, hq]
  · exact hq

structure Founds (ps : List Path) (s t : Store) : Prop where
  tree : t.Tree
  advances : Advances s t
  kept : ∀ q n, s.node? q = some n → t.node? q = some n
  outside : ∀ q, q ∉ ps → t.node? q = s.node? q

theorem Founds.cons {ps : List Path} (h : Founds ps s t) : Founds (p :: ps) s t :=
  ⟨h.tree, h.advances, h.kept, fun q hq => h.outside q fun hm => hq (List.mem_cons_of_mem p hm)⟩

theorem Founds.stamp {ps : List Path} (hn : s.node? p = none)
    (h : Founds ps (s.stamp p .folder) t) : Founds (p :: ps) s t := by
  refine ⟨h.tree, (stamp_advances p _ s).trans h.advances, ?_, ?_⟩
  · intro q n hq
    apply h.kept
    have ne : q ≠ p := by
      intro e
      rw [e, hn] at hq
      cases hq
    rw [node?_stamp, if_neg ne, hq]
  · intro q hq
    have ne : q ≠ p := by
      intro e
      exact hq (e ▸ List.mem_cons_self)
    rw [h.outside q fun hm => hq (List.mem_cons_of_mem p hm), node?_stamp, if_neg ne]

theorem ensureFolders_founds {ps : List Path} (h : s.Tree) (normal : ∀ p ∈ ps, p.IsNormal)
    (chain : ps.IsChain fun a b => b.parent? = some a)
    (head : ∀ p ∈ ps.head?, ∀ parent, p.parent? = some parent → s.FolderAt parent) :
    Founds ps s (ensureFolders ps s).2 ∧
      ((ensureFolders ps s).1 = .ok () → ∀ p ∈ ps, (ensureFolders ps s).2.FolderAt p) := by
  induction ps generalizing s with
  | nil => exact ⟨⟨h, .refl s, fun _ _ hq => hq, fun _ _ => rfl⟩, fun _ => nofun⟩
  | cons p ps ih =>
    have normal' : ∀ q ∈ ps, q.IsNormal := fun q hq => normal q (List.mem_cons_of_mem p hq)
    have next {t : Store} (hp : t.FolderAt p) : ∀ q ∈ ps.head?, ∀ parent,
        q.parent? = some parent → t.FolderAt parent := by
      intro q hq parent e
      rw [(List.isChain_cons.1 chain).1 q hq] at e
      cases e
      exact hp
    have chain' := (List.isChain_cons.1 chain).2
    rw [ensureFolders]
    split
    · next m hm =>
      obtain ⟨founds, folders⟩ := ih h normal' chain' (next ⟨m, hm⟩)
      refine ⟨founds.cons, ?_⟩
      intro hok q hq
      rcases List.mem_cons.1 hq with rfl | hq
      · exact ⟨m, founds.kept q _ hm⟩
      · exact folders hok q hq
    · refine ⟨⟨h, .refl s, fun _ _ hq => hq, fun _ _ => rfl⟩, ?_⟩
      intro hok
      cases hok
    · next hn =>
      have at' : (s.stamp p .folder).node? p = some ⟨.folder, s.clock + 1⟩ := by
        rw [node?_stamp, if_pos rfl]
      have tree : (s.stamp p .folder).Tree := by
        apply h.stamp (normal p List.mem_cons_self) _ (.inl rfl)
        intro parent name e
        exact head p rfl parent (Path.parent?_eq_some_iff.2 ⟨name, e⟩)
      obtain ⟨founds, folders⟩ := ih tree normal' chain' (next ⟨_, at'⟩)
      refine ⟨founds.stamp hn, ?_⟩
      intro hok q hq
      rcases List.mem_cons.1 hq with rfl | hq
      · exact ⟨_, founds.kept q _ at'⟩
      · exact folders hok q hq

theorem ancestors_founds (h : s.Tree) (normal : p.IsNormal) :
    Founds p.ancestors s (ensureFolders p.ancestors s).2 ∧
      ((ensureFolders p.ancestors s).1 = .ok () →
        ∀ a ∈ p.ancestors, (ensureFolders p.ancestors s).2.FolderAt a) := by
  apply ensureFolders_founds h _ p.isChain_ancestors
  · intro a ha parent e
    cases p with
    | nil => cases ha
    | cons name p =>
      cases ha
      cases e
  · intro a ha
    exact normal.of_prefix (Path.mem_ancestors.1 ha).1

structure Change (q : Path) (alters : Bool) (s t : Store) : Prop where
  tree : t.Tree
  advances : Advances s t
  kept : alters = false → ∀ b m, s.node? q = some ⟨.file b, m⟩ → t.node? q = some ⟨.file b, m⟩
  renewed : alters = true → ∀ n, t.node? q = some n → s.clock < n.modified

theorem Change.none (h : s.Tree) (q : Path) : Change q false s s :=
  ⟨h, .refl s, fun _ _ _ hq => hq, nofun⟩

theorem Change.restampParent {alters : Bool} (h : Change q alters s t)
    (hp : ∀ parent, p.parent? = some parent → t.FolderAt parent) :
    Change q alters s (t.restampParent p) := by
  have clock := h.advances.clock
  have more := restampParent_advances p t
  refine ⟨h.tree.restampParent p, h.advances.trans more, ?_, ?_⟩
  · intro ha b m hq
    exact restampParent_file hp (h.kept ha b m hq)
  · intro ha
    exact more.renewed clock (h.renewed ha)

theorem Founds.stamp_change {ps : List Path} (h : Founds ps s t) (normal : p.IsNormal)
    (below : ∀ parent, p.parent? = some parent → t.FolderAt parent) (still : ¬ t.FolderAt p)
    (content : Content) (q : Path) : Change q (p == q) s (t.stamp p content) := by
  have clock := h.advances.clock
  refine ⟨?_, h.advances.trans (stamp_advances p content t), ?_, ?_⟩
  · apply h.tree.stamp normal _ (.inr still)
    intro parent name e
    exact below parent (Path.parent?_eq_some_iff.2 ⟨name, e⟩)
  · intro hq b m hn
    rw [node?_stamp, if_neg (Ne.symm (beq_eq_false_iff_ne.1 hq))]
    exact h.kept q _ hn
  · intro hq n hn
    rw [← beq_iff_eq.1 hq, node?_stamp, if_pos rfl] at hn
    cases hn
    exact Nat.lt_succ_of_le clock

theorem put_change (h : s.Tree) (normal : p.IsNormal) (fresh : ¬ s.FolderAt p) (content : Content)
    (q : Path) : Change q (p == q && (s.put p content).1.isOk) s (s.put p content).2 := by
  obtain ⟨founds, folders⟩ := ancestors_founds h normal
  rw [put]
  generalize hr : ensureFolders p.ancestors s = r at founds folders ⊢
  obtain ⟨e | _, t⟩ := r
  · dsimp only
    rw [Except.isOk, Except.toBool, Bool.and_false]
    exact ⟨founds.tree, founds.advances, fun _ b m hq => founds.kept q _ hq, nofun⟩
  have below : ∀ parent, p.parent? = some parent → t.FolderAt parent := by
    intro parent e
    obtain ⟨name, rfl⟩ := Path.parent?_eq_some_iff.1 e
    apply folders rfl
    exact Path.mem_ancestors.2 ⟨List.prefix_append _ _, by simp⟩
  have still : ¬ t.FolderAt p := by
    obtain outside := founds.outside p fun hm => (Path.mem_ancestors.1 hm).2 rfl
    intro hf
    obtain ⟨m, hm⟩ := hf
    exact fresh ⟨m, outside ▸ hm⟩
  have stamped : Change q (p == q) s (t.stamp p content) :=
    founds.stamp_change normal below still content q
  have folder : ∀ parent, p.parent? = some parent → (t.stamp p content).FolderAt parent := by
    intro parent e
    obtain ⟨name, rfl⟩ := Path.parent?_eq_some_iff.1 e
    exact stamped.tree.parent parent name ⟨content, t.clock + 1⟩ (by rw [node?_stamp, if_pos rfl])
  dsimp only
  rw [Except.isOk, Except.toBool, Bool.and_true]
  split
  · exact stamped.restampParent folder
  · exact stamped

theorem write_change (h : s.Tree) (normal : p.IsNormal) (bytes : ByteArray) (q : Path) :
    Change q (p == q && (s.write p bytes).1.isOk) s (s.write p bytes).2 := by
  rw [write]
  split
  · dsimp only
    rw [Except.isOk, Except.toBool, Bool.and_false]
    exact .none h q
  · next hn =>
    apply put_change h normal
    intro hf
    obtain ⟨m, hm⟩ := hf
    exact hn m hm

theorem createFolder_change (h : s.Tree) (normal : p.IsNormal) (q : Path) :
    Change q false s (s.createFolder p).2 := by
  rw [createFolder]
  split
  · exact .none h q
  · exact .none h q
  · next hn =>
    have fresh : ¬ s.FolderAt p := by
      intro hf
      obtain ⟨m, hm⟩ := hf
      rw [hn] at hm
      cases hm
    obtain ⟨tree, advances, kept, _⟩ := put_change h normal fresh .folder q
    refine ⟨tree, advances, ?_, nofun⟩
    intro _ b m hq
    apply kept _ b m hq
    have ne : p ≠ q := by
      intro e
      rw [← e, hn] at hq
      cases hq
    simp [ne]

def pruned (p : Path) (s : Store) : Store :=
  { s with nodes := s.nodes.filter fun n => !p.isPrefixOf n.1 }

theorem node?_pruned (p : Path) (s : Store) (q : Path) :
    (s.pruned p).node? q = if p <+: q then none else s.node? q := by
  rw [node?_eq, node?_eq, pruned, Keyed.lookup_filter fun q => !p.isPrefixOf q]
  by_cases h : p <+: q
  · simp [h, List.isPrefixOf_iff_prefix.2 h]
  · have not : p.isPrefixOf q = false := Bool.eq_false_iff.2 (mt List.isPrefixOf_iff_prefix.1 h)
    simp [h, not]

theorem folderAt_pruned (hq : ¬ p <+: q) : (s.pruned p).FolderAt q ↔ s.FolderAt q := by
  simp only [FolderAt, node?_pruned, if_neg hq]

theorem pruned_change (h : s.Tree) (hp : p ≠ []) (q : Path) :
    Change q (p.isPrefixOf q) s (s.pruned p) := by
  have was {r : Path} {n : Node} (hn : (s.pruned p).node? r = some n) :
      s.node? r = some n ∧ ¬ p <+: r := by
    rw [node?_pruned] at hn
    split at hn
    · cases hn
    · next hr => exact ⟨hn, hr⟩
  have advances : Advances s (s.pruned p) := by
    refine ⟨Nat.le_refl _, ?_⟩
    intro r
    rw [node?_pruned]
    split
    · exact .inr (.inl rfl)
    · exact .inl rfl
  refine ⟨⟨?_, ?_, ?_, advances.times h.times⟩, advances, ?_, ?_⟩
  · apply (folderAt_pruned _).2 h.root
    intro hr
    exact hp (List.prefix_nil.1 hr)
  · intro r name n hn
    obtain ⟨hs, hr⟩ := was hn
    apply (folderAt_pruned _).2 (h.parent r name n hs)
    intro hr'
    exact hr (hr'.trans (List.prefix_append r [name]))
  · intro r n hn
    exact h.normal r n (was hn).1
  · intro hq b m hn
    have not : ¬ p <+: q := fun hr => Bool.eq_false_iff.1 hq (List.isPrefixOf_iff_prefix.2 hr)
    rw [node?_pruned, if_neg not, hn]
  · intro hq n hn
    exact absurd (List.isPrefixOf_iff_prefix.1 hq) (was hn).2

theorem remove_change (h : s.Tree) (p q : Path) :
    Change q (p.isPrefixOf q && (s.remove p).1) s (s.remove p).2 := by
  rw [remove]
  split
  · rw [Bool.and_false]
    exact .none h q
  next hr =>
  rw [Bool.or_eq_true, not_or] at hr
  have root : p ≠ [] := by
    intro e
    exact hr.1 (by rw [e]; rfl)
  dsimp only
  rw [Bool.and_true]
  apply (pruned_change h root q).restampParent
  intro parent e
  obtain ⟨name, rfl⟩ := Path.parent?_eq_some_iff.1 e
  obtain ⟨n, hn⟩ : ∃ n, s.node? (parent ++ [name]) = some n := by
    apply Option.ne_none_iff_exists'.1
    simpa [contains] using hr.2
  apply (folderAt_pruned _).2 (h.parent parent name n hn)
  intro hp
  have length := hp.length_le
  simp at length

theorem touch_change (h : s.Tree) (p q : Path) :
    Change q (p == q && (s.touch p).1) s (s.touch p).2 := by
  rw [touch]
  split
  · next hc =>
    have clock := clock_restamp p s
    dsimp only
    rw [Bool.and_true]
    refine ⟨h.restamp p, restamp_advances p s, ?_, ?_⟩
    · intro hq b m hn
      rw [node?_restamp, if_neg (Ne.symm (beq_eq_false_iff_ne.1 hq)), hn]
    · intro hq n hn
      rw [← beq_iff_eq.1 hq, node?_restamp, if_pos rfl] at hn
      obtain ⟨m, _, rfl⟩ := Option.map_eq_some_iff.1 hn
      exact Nat.lt_succ_self _
  · rw [Bool.and_false]
    exact .none h q

theorem setFailing_change (h : s.Tree) (p : Path) (failing : Bool) (q : Path) :
    Change q false s (s.setFailing p failing) :=
  ⟨⟨h.root, h.parent, h.normal, h.times⟩, ⟨Nat.le_refl _, fun _ => .inl rfl⟩,
    fun _ _ _ hq => hq, nofun⟩

theorem Change.trans {a b : Bool} (h : Change q a s t) (h' : Change q b t u) :
    Change q (a || b) s u := by
  have clock := h.advances.clock
  refine ⟨h'.tree, h.advances.trans h'.advances, ?_, ?_⟩
  · intro hab k m hq
    obtain ⟨ha, hb⟩ := Bool.or_eq_false_iff.1 hab
    exact h'.kept hb k m (h.kept ha k m hq)
  · intro hab n hn
    cases b with
    | true =>
      have later := h'.renewed rfl n hn
      omega
    | false =>
      rw [Bool.or_false] at hab
      exact h'.advances.renewed clock (h.renewed hab) n hn

theorem apply_change (op : Op) (h : s.Tree) (q : Path) :
    Change q (op.alters q s) s (op.apply s) := by
  cases op with
  | write path bytes => exact write_change h (Path.isNormal_ofText path) bytes q
  | createFolder path => exact createFolder_change h (Path.isNormal_ofText path) q
  | remove path => exact remove_change h (Path.ofText path) q
  | touch path => exact touch_change h (Path.ofText path) q
  | setFailing path failing => exact setFailing_change h (Path.ofText path) failing q

theorem run_change (ops : List Op) (h : s.Tree) (q : Path) :
    Change q (altered q ops s) s (s.run ops) := by
  induction ops generalizing s with
  | nil => exact .none h q
  | cons op ops ih =>
    have first := apply_change op h q
    exact first.trans (ih first.tree)

theorem tree_run (ops : List Op) : (empty.run ops).Tree := (run_change ops tree_empty []).tree

theorem file_unaltered (ops : List Op) (h : s.Tree) {b b' : ByteArray} {m m' : Nat}
    (before : s.node? q = some ⟨.file b, m⟩) (after : (s.run ops).node? q = some ⟨.file b', m'⟩) :
    (m' = m ↔ altered q ops s = false) ∧ (m' = m → b' = b) := by
  obtain ⟨_, _, kept, renewed⟩ := run_change ops h q
  cases unaltered : altered q ops s with
  | false =>
    rw [kept unaltered b m before] at after
    cases after
    exact ⟨iff_of_true rfl rfl, fun _ => rfl⟩
  | true =>
    have earlier : m ≤ s.clock := h.times q _ before
    have later : s.clock < m' := renewed unaltered _ after
    have ne : m' ≠ m := by omega
    exact ⟨iff_of_false ne (by simp), fun same => absurd same ne⟩

theorem file_run (ops : List Op) (h : s.Tree) {b b' : ByteArray} {m m' : Nat}
    (before : s.node? q = some ⟨.file b, m⟩) (after : (s.run ops).node? q = some ⟨.file b', m'⟩) :
    altered q ops s = true ↔ m' ≠ m ∨ b'.size ≠ b.size := by
  obtain ⟨time, bytes⟩ := file_unaltered ops h before after
  rw [← Bool.not_eq_false, ← time]
  constructor
  · exact .inl
  · rintro (ne | ne) same
    · exact ne same
    · exact ne (congrArg ByteArray.size (bytes same))

theorem removed_append (q : Path) (ops later : List Op) (s : Store) :
    removed q (ops ++ later) s = (removed q ops s || removed q later (s.run ops)) := by
  induction ops generalizing s with
  | nil => rfl
  | cons op ops ih => rw [List.cons_append, removed, removed, ih, Bool.or_assoc]; rfl

/-- A property that every single change of a store keeps, the removal of a path if it spares what the
property is about. -/
structure Lasting (holds : Store → Prop) (spares : Path → Prop) : Prop where
  stamp : ∀ p content s, holds s → holds (s.stamp p content)
  tick : ∀ s, holds s → holds { s with clock := s.clock + 1 }
  pruned : ∀ p s, spares p → holds s → holds (s.pruned p)
  failing : ∀ failing s, holds s → holds { s with failing }

namespace Lasting

variable {holds : Store → Prop} {spares : Path → Prop} (lasting : Lasting holds spares)
include lasting

theorem restamp (p : Path) (h : holds s) : holds (s.restamp p) := by
  rw [Store.restamp]
  split
  · exact lasting.stamp p _ s h
  · exact lasting.tick s h

theorem restampParent (p : Path) (h : holds s) : holds (s.restampParent p) := by
  rw [Store.restampParent]
  split
  · exact lasting.restamp _ h
  · exact h

theorem ensureFolders (ps : List Path) (h : holds s) : holds (ensureFolders ps s).2 := by
  induction ps generalizing s with
  | nil => exact h
  | cons p ps ih =>
    rw [Store.ensureFolders]
    split
    · exact ih h
    · exact h
    · exact ih (lasting.stamp p _ s h)

theorem put (p : Path) (content : Content) (h : holds s) : holds (s.put p content).2 := by
  have founded := lasting.ensureFolders p.ancestors h
  rw [Store.put]
  generalize Store.ensureFolders p.ancestors s = r at founded ⊢
  obtain ⟨e | _, t⟩ := r
  · exact founded
  · have stamped := lasting.stamp p content t founded
    dsimp only
    split
    · exact lasting.restampParent p stamped
    · exact stamped

theorem apply (op : Op) (h : holds s)
    (spared : ∀ path, op = .remove path → (s.remove (.ofText path)).1 = true →
      spares (.ofText path)) : holds (op.apply s) := by
  cases op with
  | write path bytes =>
    rw [Op.apply, write]
    split
    · exact h
    · exact lasting.put _ _ h
  | createFolder path =>
    rw [Op.apply, createFolder]
    split
    · exact h
    · exact h
    · exact lasting.put _ _ h
  | remove path =>
    have goes := spared path rfl
    rw [remove] at goes
    rw [Op.apply, remove]
    split
    · exact h
    · next there =>
      rw [if_neg there] at goes
      exact lasting.restampParent _ (lasting.pruned (.ofText path) s (goes rfl) h)
  | touch path =>
    rw [Op.apply, touch]
    split
    · exact lasting.restamp _ h
    · exact h
  | setFailing path failing => exact lasting.failing _ s h

theorem run (always : ∀ p, spares p) (ops : List Op) (h : holds s) : holds (s.run ops) := by
  induction ops generalizing s with
  | nil => exact h
  | cons op ops ih => exact ih (lasting.apply op h fun path _ _ => always (.ofText path))

end Lasting

theorem lasting_contains (q : Path) : Lasting (fun s => s.contains q = true) fun p => ¬ p <+: q where
  stamp p content s h := by
    rw [contains, node?_stamp]
    split
    · rfl
    · exact h
  tick _ h := h
  pruned p s outside h := by
    rw [contains, node?_pruned, if_neg outside]
    exact h
  failing _ _ h := h

theorem contains_apply (op : Op) (h : s.contains q = true) (kept : op.removes q s = false) :
    (op.apply s).contains q = true := by
  refine (lasting_contains q).apply op h ?_
  intro path same goes below
  rw [same, Op.removes, goes, Bool.and_true] at kept
  exact Bool.eq_false_iff.1 kept (List.isPrefixOf_iff_prefix.2 below)

theorem contains_run {ops : List Op} (h : s.contains q = true) (kept : removed q ops s = false) :
    (s.run ops).contains q = true := by
  induction ops generalizing s with
  | nil => exact h
  | cons op ops ih =>
    obtain ⟨first, rest⟩ := Bool.or_eq_false_iff.1 kept
    exact ih (contains_apply op h first) rest

end Store

end PathWatch.Memory
