import PathWatch.Proofs.Memory.Key
import PathWatch.Proofs.Memory.Order
import PathWatch.Proofs.Memory.Scan

/-! A table holds under the texts of paths what a store holds under the paths. This is so from the
start, every operation on both keeps it so and gives the same on both, and so do all queries. -/
namespace PathWatch.Memory

theorem Path.text_lt_text_iff {p : Path} (hp : p.IsNormal) {name name' : String} :
    text (p ++ [name]) < text (p ++ [name']) ↔ name < name' := by
  rw [String.lt_iff_toList_lt, Key.toList_text_child hp, Key.toList_text_child hp,
    Memory.append_lt_append_iff, String.lt_iff_toList_lt]

namespace Table

structure Represents (t : Table) (s : Store) : Prop where
  ordered : Keyed.Ordered t.nodes
  node : ∀ p : Path, p.IsNormal → t.node? p.text = s.node? p
  key : ∀ k n, t.node? k = some n → Path.normalForm k = k
  normal : ∀ p n, s.node? p = some n → p.IsNormal
  clock : t.clock = s.clock
  failing : t.failing = s.failing.map Path.text
  outages : ∀ p ∈ s.failing, p.IsNormal

structure Agree {α : Type} (r : α × Table) (r' : α × Store) : Prop where
  given : r.1 = r'.1
  left : Represents r.2 r'.2

variable {t u : Table} {s : Store} {p : Path}

theorem node?_stamp (key : String) (content : Content) (t : Table) (k : String) :
    (t.stamp key content).node? k =
      if k = key then some ⟨content, t.clock + 1⟩ else t.node? k := by
  rw [node?, stamp, node?]
  split
  · next same =>
    subst same
    exact Keyed.lookup_insert_self _ _ _
  · next other => exact Keyed.lookup_insert_ne other _ _

theorem createFolder_eq_put {path : String} (absent : t.node? (Path.normalForm path) = none)
    (new : (t.ensureParents (Path.normalForm path)).2.node? (Path.normalForm path) = none) :
    t.createFolder path = t.put (Path.normalForm path) .folder := by
  rw [createFolder, put, absent]
  dsimp only
  generalize t.ensureParents (Path.normalForm path) = r at new ⊢
  obtain ⟨result, u⟩ := r
  cases result with
  | error e => rfl
  | ok =>
    have isNew : (u.node? (Path.normalForm path)).isNone = true := Option.isNone_iff_eq_none.2 new
    dsimp only
    rw [isNew, if_pos rfl]

def pruned (key : String) (t : Table) : Table :=
  let left := Keyed.erase key t.nodes
  { t with nodes := eraseAll (Keyed.keys (scan (key ++ "/") left)) left }

theorem node?_pruned (ordered : Keyed.Ordered t.nodes) (key k : String) :
    (t.pruned key).node? k =
      if k = key ∨ (key ++ "/").toList <+: k.toList then none else t.node? k :=
  lookup_pruned ordered key k

def listed (t : Table) (key : String) : List String :=
  (Keyed.keys (scan (Key.front key) t.nodes)).filter fun k =>
    decide ((Key.front key).length < k.length) &&
      !(k.toList.drop (Key.front key).length).contains '/'

namespace Represents

theorem unique (h : Represents t s) (h' : Represents u s) : t = u := by
  have found {t u : Table} (h : Represents t s) (h' : Represents u s) {k : String} {n : Node}
      (hn : t.node? k = some n) : u.node? k = some n := by
    have normal := Path.isNormal_ofText k
    have same : (Path.ofText k).text = k := h.key k n hn
    rw [← same, h.node _ normal] at hn
    rw [← same, h'.node _ normal, hn]
  have nodes : t.nodes = u.nodes := by
    refine h.ordered.ext h'.ordered fun k => ?_
    show t.node? k = u.node? k
    cases hn : t.node? k with
    | some n => exact (found h h' hn).symm
    | none =>
      symm
      rw [Option.eq_none_iff_forall_ne_some]
      intro n hu
      rw [found h' h hu] at hn
      cases hn
  have clock := h.clock.trans h'.clock.symm
  have failing := h.failing.trans h'.failing.symm
  cases t
  cases u
  simp_all

theorem tick (h : Represents t s) : Represents t.tick { s with clock := s.clock + 1 } :=
  ⟨h.ordered, h.node, h.key, h.normal, congrArg (· + 1) h.clock, h.failing, h.outages⟩

theorem stamp (h : Represents t s) (normal : p.IsNormal) (content : Content) :
    Represents (t.stamp p.text content) (s.stamp p content) where
  ordered := Keyed.ordered_insert _ _ h.ordered
  node q hq := by
    simp only [Table.node?_stamp, Store.node?_stamp, Path.text_inj hq normal, h.node q hq, h.clock]
  key k n hn := by
    rw [Table.node?_stamp] at hn
    split at hn
    · next same =>
      rw [same]
      exact congrArg Path.text (Path.ofText_text normal)
    · exact h.key k n hn
  normal q n hn := by
    rw [Store.node?_stamp] at hn
    split at hn
    · next same => exact same ▸ normal
    · exact h.normal q n hn
  clock := congrArg (· + 1) h.clock
  failing := h.failing
  outages := h.outages

theorem empty : Represents Table.empty Store.empty := by
  have nothing : Represents ⟨[], 0, []⟩ ⟨[], 0, []⟩ :=
    ⟨.nil, fun _ _ => rfl, nofun, nofun, rfl, rfl, nofun⟩
  exact nothing.stamp (p := []) (fun _ => nofun) .folder

theorem restamp (h : Represents t s) (normal : p.IsNormal) :
    Represents (t.restamp p.text) (s.restamp p) := by
  rw [Table.restamp, Store.restamp, h.node p normal]
  cases s.node? p with
  | none => exact h.tick
  | some node => exact h.stamp normal _

theorem restampParent (h : Represents t s) (normal : p.IsNormal) :
    Represents (t.restampParent p.text) (s.restampParent p) := by
  rw [Table.restampParent, Store.restampParent, Key.parent?_text normal]
  cases above : p.parent? with
  | none => exact h
  | some parent =>
    obtain ⟨name, rfl⟩ := Path.parent?_eq_some_iff.1 above
    exact h.restamp (normal.of_prefix (List.prefix_append _ _))

theorem ensureFolders {ps : List Path} (h : Represents t s) (normal : ∀ p ∈ ps, p.IsNormal) :
    Agree (Table.ensureFolders (ps.map Path.text) t) (Store.ensureFolders ps s) := by
  induction ps generalizing t s with
  | nil => exact ⟨rfl, h⟩
  | cons p ps ih =>
    obtain ⟨here, rest⟩ := List.forall_mem_cons.1 normal
    rw [List.map_cons, Table.ensureFolders, Store.ensureFolders, h.node p here]
    rcases s.node? p with _ | ⟨bytes | _, m⟩
    · exact ih (h.stamp here .folder) rest
    · exact ⟨rfl, h⟩
    · exact ih h rest

theorem ensureParents (h : Represents t s) (normal : p.IsNormal) :
    Agree (t.ensureParents p.text) (Store.ensureFolders p.ancestors s) := by
  rw [Table.ensureParents, Key.ancestors_text normal]
  exact h.ensureFolders fun a ha => normal.of_prefix (Path.mem_ancestors.1 ha).1

theorem put (h : Represents t s) (normal : p.IsNormal) (content : Content) :
    Agree (t.put p.text content) (s.put p content) := by
  obtain ⟨given, left⟩ := h.ensureParents normal
  rw [Table.put, Store.put]
  generalize t.ensureParents p.text = r at given left ⊢
  generalize Store.ensureFolders p.ancestors s = r' at given left ⊢
  obtain ⟨result, u⟩ := r
  obtain ⟨_, v⟩ := r'
  cases given
  cases result with
  | error e => exact ⟨rfl, left⟩
  | ok =>
    have stamped := left.stamp normal content
    have new : (u.node? p.text).isNone = !v.contains p := by
      rw [left.node p normal, Store.contains, Option.not_isSome]
    refine ⟨rfl, ?_⟩
    dsimp only
    rw [new]
    cases v.contains p with
    | false => exact stamped.restampParent normal
    | true => exact stamped

variable {path : String}

theorem write (h : Represents t s) (bytes : ByteArray) :
    Agree (t.write path bytes) (s.write (.ofText path) bytes) := by
  have normal := Path.isNormal_ofText path
  have found := h.node _ normal
  have put := h.put normal (.file bytes)
  rw [Table.write, Store.write, Path.normalForm]
  generalize Path.ofText path = p at found put ⊢
  rw [found]
  rcases s.node? p with _ | ⟨old | _, m⟩
  · exact put
  · exact put
  · exact ⟨rfl, h⟩

theorem createFolder (h : Represents t s) (tree : s.Tree) :
    Agree (t.createFolder path) (s.createFolder (.ofText path)) := by
  have normal := Path.isNormal_ofText path
  have found := h.node _ normal
  have put := h.put normal .folder
  have parents := (h.ensureParents normal).left.node _ normal
  cases hn : s.node? (.ofText path) with
  | none =>
    -- No folder above the path is made at the path itself.
    have outside := (Store.ancestors_founds tree normal).1.outside (.ofText path) fun above =>
      (Path.mem_ancestors.1 above).2 rfl
    rw [createFolder_eq_put (found.trans hn) (parents.trans (outside.trans hn)),
      Store.createFolder, hn]
    exact put
  | some n =>
    have there : t.node? (Path.normalForm path) = some n := found.trans hn
    rw [Table.createFolder, Store.createFolder, hn, there]
    obtain ⟨old | _, m⟩ := n
    · exact ⟨rfl, h⟩
    · exact ⟨rfl, h⟩

theorem pruned (h : Represents t s) (normal : p.IsNormal) (root : p ≠ []) :
    Represents (t.pruned p.text) (s.pruned p) where
  ordered := ordered_eraseAll (h.ordered.filter _) _
  node q hq := by
    simp only [node?_pruned h.ordered, Store.node?_pruned, Path.text_inj hq normal, h.node q hq,
      Path.isPrefix_iff_text normal root hq]
  key k n hn := by
    rw [node?_pruned h.ordered] at hn
    split at hn
    · cases hn
    · exact h.key k n hn
  normal q n hn := by
    rw [Store.node?_pruned] at hn
    split at hn
    · cases hn
    · exact h.normal q n hn
  clock := h.clock
  failing := h.failing
  outages := h.outages

theorem remove (h : Represents t s) : Agree (t.remove path) (s.remove (.ofText path)) := by
  have normal := Path.isNormal_ofText path
  rw [Table.remove, Store.remove, Path.normalForm]
  generalize Path.ofText path = p at normal ⊢
  dsimp only
  rw [h.node p normal]
  by_cases root : p = []
  · subst root
    exact ⟨rfl, h⟩
  rw [if_neg (mt (Path.text_eq_root_iff normal).1 root), Store.contains]
  cases hn : s.node? p with
  | none =>
    have stays : (p.isEmpty || !(none : Option Node).isSome) = true := by simp
    rw [if_pos stays]
    exact ⟨rfl, h⟩
  | some node =>
    have goes : ¬ (p.isEmpty || !(some node).isSome) = true := by simpa using root
    rw [if_neg goes]
    exact ⟨rfl, (h.pruned normal root).restampParent normal⟩

theorem touch (h : Represents t s) : Agree (t.touch path) (s.touch (.ofText path)) := by
  have normal := Path.isNormal_ofText path
  rw [Table.touch, Store.touch, Path.normalForm]
  generalize Path.ofText path = p at normal ⊢
  rw [h.node p normal, Store.contains]
  cases s.node? p with
  | none => exact ⟨rfl, h⟩
  | some node => exact ⟨rfl, h.restamp normal⟩

theorem setFailing (h : Represents t s) (failing : Bool) :
    Represents (t.setFailing path failing) (s.setFailing (.ofText path) failing) := by
  have normal := Path.isNormal_ofText path
  rw [Table.setFailing, Store.setFailing, Path.normalForm]
  generalize Path.ofText path = p at normal ⊢
  have others : t.failing.filter (· ≠ p.text) = (s.failing.filter (· ≠ p)).map Path.text := by
    rw [h.failing, List.filter_map]
    refine congrArg _ (List.filter_congr fun q hq => ?_)
    simp only [Function.comp_apply, ne_eq, Path.text_inj (h.outages q hq) normal]
  have kept : ∀ q ∈ s.failing.filter (· ≠ p), q.IsNormal :=
    fun q hq => h.outages q (List.mem_filter.1 hq).1
  refine ⟨h.ordered, h.node, h.key, h.normal, h.clock, ?_, ?_⟩
  · rw [others]
    cases failing <;> rfl
  · cases failing with
    | false => exact kept
    | true => exact List.forall_mem_cons.2 ⟨normal, kept⟩

theorem look (h : Represents t s) (normal : p.IsNormal) : t.look p.text = s.look p := by
  have same : t.failing.contains p.text = s.failing.contains p := by
    rw [h.failing, Bool.eq_iff_iff, List.contains_iff_mem, List.contains_iff_mem, List.mem_map]
    constructor
    · rintro ⟨q, hq, text⟩
      exact (Path.text_inj (h.outages q hq) normal).1 text ▸ hq
    · intro hp
      exact ⟨p, hp, rfl⟩
  rw [Table.look, Store.look, same, h.node p normal]
  rfl

theorem isPresent (h : Represents t s) (normal : p.IsNormal) :
    t.isPresent p.text = s.isPresent p := by
  rw [Table.isPresent, h.look normal]
  rfl

theorem modified (h : Represents t s) (normal : p.IsNormal) :
    t.modified p.text = s.modified p := by
  rw [Table.modified, Store.modified, h.look normal]

theorem isFolder (h : Represents t s) (normal : p.IsNormal) :
    t.isFolder p.text = s.isFolder p := by
  rw [Table.isFolder, Store.isFolder, h.look normal]

theorem size (h : Represents t s) (normal : p.IsNormal) : t.size p.text = s.size p := by
  rw [Table.size, h.look normal]
  rfl

theorem contains (h : Represents t s) (path : String) :
    t.contains path = s.contains (.ofText path) := by
  rw [Table.contains, Store.contains, Path.normalForm, h.node _ (Path.isNormal_ofText path)]

theorem read? (h : Represents t s) (path : String) :
    t.read? path = s.read? (.ofText path) := by
  rw [Table.read?, Path.normalForm, h.node _ (Path.isNormal_ofText path)]
  rfl

theorem mem_keys (h : Represents t s) {k : String} :
    k ∈ Keyed.keys t.nodes ↔ ∃ q n, s.node? q = some n ∧ q.text = k := by
  rw [← Keyed.isSome_lookup_iff, Option.isSome_iff_exists]
  constructor
  · rintro ⟨n, hn⟩
    have same : (Path.ofText k).text = k := h.key k n hn
    refine ⟨Path.ofText k, n, ?_, same⟩
    rw [← h.node _ (Path.isNormal_ofText k), same]
    exact hn
  · rintro ⟨q, n, hn, rfl⟩
    exact ⟨n, (h.node q (h.normal q n hn)).trans hn⟩

theorem mem_listed (h : Represents t s) (normal : p.IsNormal) {k : String} :
    k ∈ t.listed p.text ↔ k ∈ Keyed.keys t.nodes ∧ Key.parent? k = some p.text := by
  rw [listed, List.mem_filter, mem_keys_scan h.ordered, and_assoc, and_congr_right_iff]
  intro there
  obtain ⟨q, n, hn, rfl⟩ := h.mem_keys.1 there
  rw [← Key.child_iff normal (h.normal q n hn)]
  simp

theorem listed_sorted (h : Represents t s) (key : String) :
    (t.listed key).Pairwise (· < ·) := by
  have sorted : (Keyed.keys (scan (Key.front key) t.nodes)).Pairwise (· < ·) := by
    rw [scan_eq_filter h.ordered]
    exact List.pairwise_map.2 (h.ordered.filter _)
  exact sorted.filter _

theorem listed_eq (h : Represents t s) (ordered : s.Ordered) (normal : p.IsNormal) :
    t.listed p.text = (s.listed p).map Path.text := by
  have named : ((s.listed p).map Path.text).Pairwise (· < ·) := by
    rw [List.pairwise_map]
    refine (ordered.listed_sorted p).imp_of_mem ?_
    intro c d hc hd less
    obtain ⟨_, name, rfl⟩ := Memory.mem_listed.1 hc
    obtain ⟨_, name', rfl⟩ := Memory.mem_listed.1 hd
    rw [Path.name_append, Path.name_append] at less
    exact (Path.text_lt_text_iff normal).2 less
  have perm : (t.listed p.text).Perm ((s.listed p).map Path.text) := by
    have nodup {ks : List String} (sorted : ks.Pairwise (· < ·)) : ks.Nodup :=
      sorted.imp fun less => ne_of_lt less
    rw [List.perm_ext_iff_of_nodup (nodup (h.listed_sorted p.text)) (nodup named)]
    intro k
    rw [h.mem_listed normal, h.mem_keys, List.mem_map]
    constructor
    · rintro ⟨⟨q, n, hn, rfl⟩, child⟩
      have below := (Key.parent?_text_eq_some_iff normal (h.normal q n hn)).1 child
      exact ⟨q, Memory.mem_listed.2 ⟨Option.isSome_of_eq_some hn, below⟩, rfl⟩
    · rintro ⟨q, hq, rfl⟩
      obtain ⟨there, below⟩ := Memory.mem_listed.1 hq
      obtain ⟨n, hn⟩ := Option.isSome_iff_exists.1 there
      exact ⟨⟨q, n, hn, rfl⟩, (Key.parent?_text_eq_some_iff normal (h.normal q n hn)).2 below⟩
  -- Both lists are in the order of their texts.
  exact perm.eq_of_pairwise (fun _ _ _ _ less more => absurd less (lt_asymm more))
    (h.listed_sorted p.text) named

theorem children (h : Represents t s) (ordered : s.Ordered) (normal : p.IsNormal) :
    t.children p.text = (s.children p).map (List.map Path.text) := by
  have same := h.listed_eq ordered normal
  rw [listed, Store.listed] at same
  rw [Table.children, Store.children, h.look normal]
  cases s.look p with
  | error e => rfl
  | ok node =>
    obtain ⟨bytes | _, m⟩ := node
    · rfl
    · exact congrArg Except.ok same

end Represents

end Table

end PathWatch.Memory
