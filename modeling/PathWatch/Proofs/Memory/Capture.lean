import PathWatch.Proofs.Capture.Gather
import PathWatch.Proofs.Diff
import PathWatch.Proofs.Memory.Tree

/-! A capture of a path in memory shows each path below as it is in the store,
except that what lies at or below a failing path stays as it was known. -/
namespace PathWatch

namespace Memory

open Snapshot

variable {σ : Type} (store : σ → Store)

def queries : Queries Path σ where
  id := Path.id
  name := Path.name
  isPresent p s := ((store s).isPresent p, s)
  modified p s := ((store s).modified p, s)
  isFolder p s := ((store s).isFolder p, s)
  size p s := ((store s).size p, s)
  children p s := ((store s).children p, s)

def Store.facts? (s : Store) (p : Path) : Option Facts :=
  (s.node? p).map fun n =>
    match n.content with
    | .file bytes => ⟨p.id, true, some (.ofMillis n.modified), bytes.size, false⟩
    | .folder => ⟨p.id, true, some (.ofMillis n.modified), 0, true⟩

/-- The watched path `p` fails, or something does that exists below it on the way to `q`. -/
def Hidden (s : Store) (p q : Path) : Prop :=
  p ∈ s.failing ∨ ∃ r ∈ s.failing, (s.node? r).isSome ∧ p <+: r ∧ r ≠ p ∧ r <+: q

instance (s : Store) (p q : Path) : Decidable (Hidden s p q) :=
  inferInstanceAs (Decidable (_ ∨ _))

def Store.listed (s : Store) (p : Path) : List Path :=
  (Keyed.keys s.nodes).filter fun c => c.parent? == some p

theorem still_queries : (queries store).Within fun s t => t = s where
  refl _ := rfl
  trans h h' := h'.trans h
  isPresent _ _ := rfl
  modified _ _ := rfl
  isFolder _ _ := rfl
  size _ _ := rfl
  children _ _ := rfl

theorem visit_after (recursive : Bool) (depth : Nat) (p : Path) (prior : Option Snapshot) (s : σ) :
    (Capture.visit (queries store) recursive depth p prior s).after = s :=
  Capture.visit_within (still_queries store) recursive depth p prior s

section

variable {store} {s : σ} {p : Path} (recursive : Bool)
  (visit : Path → Option Snapshot → σ → Visit σ) (prior : Option Snapshot)

theorem look_failing (h : p ∈ (store s).failing) :
    Capture.look (queries store) recursive visit p prior s =
      .failed (.unavailable p.idText) s := by
  simp [Capture.look, queries, Store.isPresent, Store.look, h, FsError.isNotFound]

theorem look_absent (h : p ∉ (store s).failing) (hn : (store s).node? p = none) :
    Capture.look (queries store) recursive visit p prior s = .found (.missing p.id) s := by
  simp [Capture.look, queries, Store.isPresent, Store.look, h, hn, FsError.isNotFound]

theorem look_file (h : p ∉ (store s).failing) {bytes : ByteArray} {m : Nat}
    (hn : (store s).node? p = some ⟨.file bytes, m⟩) :
    Capture.look (queries store) recursive visit p prior s =
      .found (.file p.id (.ofMillis m) bytes.size) s := by
  simp [Capture.look, queries, Store.isPresent, Store.modified, Store.isFolder, Store.size,
    Store.look, h, hn, Except.map]

theorem look_folder (h : p ∉ (store s).failing) {m : Nat}
    (hn : (store s).node? p = some ⟨.folder, m⟩) :
    Capture.look (queries store) recursive visit p prior s =
      if recursive then
        let g := Capture.gather (queries store) visit ((prior.map contents).getD [])
          ((store s).listed p) ⟨[], [], s⟩
        ⟨.ok (.folder p.id (.ofMillis m) g.children), g.failures, g.after⟩
      else .found (.folder p.id (.ofMillis m) []) s := by
  have listed : (store s).children p = .ok ((store s).listed p) := by
    simp [Store.children, Store.look, h, hn, bind, Except.bind, pure, Except.pure, Store.listed]
  simp [Capture.look, queries, Store.isPresent, Store.modified, Store.isFolder, Store.look, h, hn,
    Except.map, listed]

end

/-- What shows at a list of names below the path: what was known if it is hidden, and what is in
the store otherwise. -/
def seen (s : Store) (p : Path) (prior : Option Snapshot) (names : List String) : Option Facts :=
  if Hidden s p (p ++ names) then (prior.bind (at? names)).map facts else s.facts? (p ++ names)

section

variable {t : Store} {p : Path}

theorem through_child {r : Path} {name : String} {names : List String} (hp : p <+: r) (hne : r ≠ p)
    (hr : r <+: p ++ name :: names) : p ++ [name] <+: r := by
  obtain ⟨rest, rfl⟩ := hp
  have below := (List.prefix_append_right_inj p).1 hr
  rcases List.prefix_cons_iff.1 below with rfl | ⟨rest', rfl, _⟩
  · exact absurd (List.append_nil p) hne
  · exact (List.prefix_append_right_inj p).2 (List.cons_prefix_cons.2 ⟨rfl, List.nil_prefix⟩)

theorem not_hidden_self (ok : p ∉ t.failing) : ¬ Hidden t p p := by
  intro h
  rcases h with h | ⟨r, _, _, hp, hne, hr⟩
  · exact ok h
  · exact hne (hr.eq_of_length (Nat.le_antisymm hr.length_le hp.length_le))

theorem not_hidden_of_no_child (ht : t.Tree) (ok : p ∉ t.failing) {name : String}
    (hn : t.node? (p ++ [name]) = none) (names : List String) :
    ¬ Hidden t p (p ++ name :: names) := by
  intro h
  rcases h with h | ⟨r, _, hs, hp, hne, hr⟩
  · exact ok h
  · obtain ⟨n, hr'⟩ := Option.isSome_iff_exists.1 hs
    obtain ⟨m, hm⟩ := ht.node_above hr' (through_child hp hne hr)
    rw [hn] at hm
    cases hm

theorem facts?_of_no_child (ht : t.Tree) {name : String} (hn : t.node? (p ++ [name]) = none)
    (names : List String) : t.facts? (p ++ name :: names) = none := by
  have none : t.node? (p ++ name :: names) = none := by
    cases h : t.node? (p ++ name :: names) with
    | none => rfl
    | some n =>
      have above : p ++ [name] <+: p ++ name :: names :=
        (List.prefix_append_right_inj p).2 (List.cons_prefix_cons.2 ⟨rfl, List.nil_prefix⟩)
      obtain ⟨m, hm⟩ := ht.node_above h above
      rw [hn] at hm
      cases hm
  rw [Store.facts?, none]
  rfl

theorem hidden_child (ok : p ∉ t.failing) {name : String} {n : Node}
    (hn : t.node? (p ++ [name]) = some n) (names : List String) :
    Hidden t p (p ++ name :: names) ↔ Hidden t (p ++ [name]) (p ++ name :: names) := by
  constructor
  · intro h
    rcases h with h | ⟨r, hf, hs, hp, hne, hr⟩
    · exact absurd h ok
    · have below := through_child hp hne hr
      by_cases e : r = p ++ [name]
      · exact .inl (e ▸ hf)
      · exact .inr ⟨r, hf, hs, below, e, hr⟩
  · intro h
    have above : p <+: p ++ [name] := List.prefix_append p [name]
    rcases h with h | ⟨r, hf, hs, hp, hne, hr⟩
    · refine .inr ⟨p ++ [name], h, by rw [hn]; rfl, above, by simp, ?_⟩
      exact (List.prefix_append_right_inj p).2 (List.cons_prefix_cons.2 ⟨rfl, List.nil_prefix⟩)
    · refine .inr ⟨r, hf, hs, above.trans hp, ?_, hr⟩
      intro e
      have length := hp.length_le
      rw [e] at length
      simp at length

theorem mem_listed {c : Path} :
    c ∈ t.listed p ↔ (t.node? c).isSome ∧ ∃ name, c = p ++ [name] := by
  rw [Store.listed, List.mem_filter, ← Keyed.isSome_lookup_iff, ← Store.node?_eq, beq_iff_eq,
    Path.parent?_eq_some_iff]

end

section

variable {store} {s : σ}

theorem visit_failing {p : Path} (h : p ∈ (store s).failing) (recursive : Bool) (depth : Nat)
    (prior : Option Snapshot) : (Capture.visit (queries store) recursive (depth + 1) p prior s).result =
      .error (.unavailable p.idText) := by
  rw [Capture.visit, look_failing _ _ _ h]
  rfl

def DeepEnough (t : Store) (p : Path) (depth : Nat) : Prop :=
  0 < depth ∧ ∀ r n, t.node? r = some n → p <+: r → r.length < p.length + depth

theorem DeepEnough.child {t : Store} {p : Path} {depth : Nat} (h : DeepEnough t p (depth + 1))
    {name : String} {n : Node} (hn : t.node? (p ++ [name]) = some n) :
    DeepEnough t (p ++ [name]) depth := by
  have self := h.2 _ n hn (List.prefix_append p [name])
  rw [List.length_append, List.length_singleton] at self
  refine ⟨by omega, ?_⟩
  intro r m hr hp
  have below := h.2 r m hr ((List.prefix_append p [name]).trans hp)
  rw [List.length_append, List.length_singleton]
  omega

def Seen (store : σ → Store) (s : σ) (p : Path) (prior : Option Snapshot)
    (result : Except FsError Snapshot) : Prop :=
  (p ∈ (store s).failing ∧ ∃ e, result = .error e) ∨ ∃ snapshot, result = .ok snapshot ∧
    ∀ names, (at? names snapshot).map facts = seen (store s) p prior names

theorem bind_shown {p : Path} {prior : Option Snapshot} {result : Except FsError Snapshot}
    (h : Seen store s p prior result) (names : List String) :
    ((Capture.shown prior result).bind (at? names)).map facts =
      seen (store s) p prior names := by
  rcases h with ⟨hf, e, rfl⟩ | ⟨snapshot, rfl, h⟩
  · exact (if_pos (.inl hf)).symm
  · rw [← h, Capture.shown]
    cases hp : snapshot.present with
    | true => rfl
    | false =>
      cases names with
      | nil => simp [at?_nil, hp]
      | cons name names =>
        rw [at?_cons, contents_eq_nil (by simp [hp])]
        rfl

section

variable {p : Path} {name : String} {visit : Path → Option Snapshot → σ → Visit σ}
  (known : List (String × Snapshot))

theorem lookup_gather_absent (hn : (store s).node? (p ++ [name]) = none) :
    (Capture.gather (queries store) visit known ((store s).listed p)
      ⟨[], [], s⟩).children.lookup name = none := by
  refine Capture.lookup_gather_of_forall_ne ?_ _
  intro c hc e
  obtain ⟨there, name', rfl⟩ := mem_listed.1 hc
  have names : name' = name := (Path.name_append p name').symm.trans e
  rw [names, hn] at there
  cases there

theorem lookup_gather_there {n : Node} (hn : (store s).node? (p ++ [name]) = some n)
    (still : ∀ c prior, (visit c prior s).after = s) :
    (Capture.gather (queries store) visit known ((store s).listed p)
      ⟨[], [], s⟩).children.lookup name =
        Capture.shown (known.lookup name) (visit (p ++ [name]) (known.lookup name) s).result := by
  have mem : p ++ [name] ∈ (store s).listed p := mem_listed.2 ⟨by rw [hn]; rfl, name, rfl⟩
  have own : (queries store).name (p ++ [name]) = name := Path.name_append p name
  have only : ∀ c ∈ (store s).listed p,
      (queries store).name c = (queries store).name (p ++ [name]) → c = p ++ [name] := by
    intro c hc e
    obtain ⟨_, name', rfl⟩ := mem_listed.1 hc
    have names : name' = name := (Path.name_append p name').symm.trans (e.trans own)
    rw [names]
  have found := Capture.lookup_gather_of_mem still known mem only ⟨[], [], s⟩ rfl
  rwa [List.lookup_nil, Option.or_none, own] at found

end

theorem gather_seen (ht : (store s).Tree) {p : Path} (ok : p ∉ (store s).failing)
    {visit : Path → Option Snapshot → σ → Visit σ} {m : Nat} {prior : Option Snapshot}
    (children : ∀ name n, (store s).node? (p ++ [name]) = some n → ∀ prior,
      Seen store s (p ++ [name]) prior (visit (p ++ [name]) prior s).result)
    (still : ∀ c prior, (visit c prior s).after = s) (name : String) (names : List String) :
    let g := Capture.gather (queries store) visit ((prior.map contents).getD [])
      ((store s).listed p) ⟨[], [], s⟩
    (at? (name :: names) (.folder p.id (.ofMillis m) g.children)).map facts =
      seen (store s) p prior (name :: names) := by
  intro g
  have known : prior.bind (at? (name :: names)) =
      (((prior.map contents).getD []).lookup name).bind (at? names) := by
    rw [bind_at?_cons, before_eq]
  rw [at?_cons, contents_of_folder rfl rfl]
  cases hn : (store s).node? (p ++ [name]) with
  | none =>
    have absent : g.children.lookup name = none := lookup_gather_absent _ hn
    rw [seen, if_neg (not_hidden_of_no_child ht ok hn names), facts?_of_no_child ht hn]
    exact congrArg (fun o => (Option.bind o (at? names)).map facts) absent
  | some n =>
    have child := bind_shown (children name n hn (((prior.map contents).getD []).lookup name)) names
    rw [← lookup_gather_there _ hn still] at child
    refine child.trans ?_
    have path : p ++ [name] ++ names = p ++ name :: names := List.append_cons p name names |>.symm
    simp only [seen, path, known, hidden_child ok hn]

theorem seen_self {t : Store} {p : Path} (ok : p ∉ t.failing) (prior : Option Snapshot) :
    seen t p prior [] = t.facts? p := by
  rw [seen, List.append_nil, if_neg (not_hidden_self ok)]

theorem look_leaf (ht : (store s).Tree) {p : Path} (ok : p ∉ (store s).failing)
    (hf : ¬ (store s).FolderAt p) (recursive : Bool) (visit : Path → Option Snapshot → σ → Visit σ)
    (prior : Option Snapshot) :
    ∃ snapshot, Capture.look (queries store) recursive visit p prior s = .found snapshot s ∧
      ∀ names, (at? names snapshot).map facts = seen (store s) p prior names ∧
        (names ≠ [] → seen (store s) p prior names = none) := by
  have self := seen_self ok prior
  have below (name : String) (names : List String) :
      seen (store s) p prior (name :: names) = none := by
    have hn : (store s).node? (p ++ [name]) = none := by
      cases h : (store s).node? (p ++ [name]) with
      | none => rfl
      | some n => exact absurd (ht.parent p name n h) hf
    rw [seen, if_neg (not_hidden_of_no_child ht ok hn names), facts?_of_no_child ht hn]
  cases hn : (store s).node? p with
  | none =>
    refine ⟨.missing p.id, look_absent _ _ _ ok hn, ?_⟩
    intro names
    cases names with
    | nil =>
      rw [self, Store.facts?, hn]
      exact ⟨rfl, fun h => absurd rfl h⟩
    | cons name names =>
      rw [below]
      exact ⟨rfl, fun _ => rfl⟩
  | some n =>
    obtain ⟨bytes | _, m⟩ := n
    · refine ⟨.file p.id (.ofMillis m) bytes.size, look_file _ _ _ ok hn, ?_⟩
      intro names
      cases names with
      | nil =>
        rw [self, Store.facts?, hn]
        exact ⟨rfl, fun h => absurd rfl h⟩
      | cons name names =>
        rw [below]
        exact ⟨rfl, fun _ => rfl⟩
    · exact absurd ⟨m, hn⟩ hf

theorem visit_seen (ht : (store s).Tree) {depth : Nat} {p : Path} (deep : DeepEnough (store s) p depth)
    (ok : p ∉ (store s).failing) (prior : Option Snapshot) :
    ∃ snapshot, (Capture.visit (queries store) true depth p prior s).result = .ok snapshot ∧
      ∀ names, (at? names snapshot).map facts = seen (store s) p prior names := by
  induction depth generalizing p prior with
  | zero => exact absurd deep.1 (Nat.lt_irrefl 0)
  | succ depth ih =>
    rw [Capture.visit]
    by_cases hf : (store s).FolderAt p
    · obtain ⟨m, hn⟩ := hf
      rw [look_folder _ _ _ ok hn, if_pos rfl]
      refine ⟨_, rfl, ?_⟩
      intro names
      cases names with
      | nil =>
        rw [seen_self ok, Store.facts?, hn]
        rfl
      | cons name names =>
        refine gather_seen ht ok ?_ (fun c prior => visit_after store true depth c prior s) name names
        intro name n hn prior
        have deep' := deep.child hn
        by_cases hf : p ++ [name] ∈ (store s).failing
        · obtain ⟨d, rfl⟩ := Nat.exists_eq_add_one.2 deep'.1
          exact .inl ⟨hf, _, visit_failing hf true d prior⟩
        · exact .inr (ih deep' hf prior)
    · obtain ⟨snapshot, found, shows⟩ := look_leaf ht ok hf true
        (Capture.visit (queries store) true depth) prior
      rw [found]
      exact ⟨snapshot, rfl, fun names => (shows names).1⟩

theorem visit_shallow (ht : (store s).Tree) {depth : Nat} {p : Path}
    (deep : DeepEnough (store s) p depth) (ok : p ∉ (store s).failing) (prior : Option Snapshot) :
    ∃ snapshot, (Capture.visit (queries store) false depth p prior s).result = .ok snapshot ∧
      ∀ names, (at? names snapshot).map facts =
        if names = [] then seen (store s) p prior names else none := by
  obtain ⟨d, rfl⟩ := Nat.exists_eq_add_one.2 deep.1
  rw [Capture.visit]
  by_cases hf : (store s).FolderAt p
  · obtain ⟨m, hn⟩ := hf
    rw [look_folder _ _ _ ok hn]
    refine ⟨.folder p.id (.ofMillis m) [], rfl, ?_⟩
    intro names
    cases names with
    | nil =>
      rw [if_pos rfl, seen_self ok, Store.facts?, hn]
      rfl
    | cons name names => rfl
  · obtain ⟨snapshot, found, shows⟩ := look_leaf ht ok hf false
      (Capture.visit (queries store) false d) prior
    rw [found]
    refine ⟨snapshot, rfl, ?_⟩
    intro names
    obtain ⟨shown, below⟩ := shows names
    split
    · exact shown
    · next h => exact shown.trans (below h)

theorem visit_shows (ht : (store s).Tree) (recursive : Bool) {depth : Nat} {p : Path}
    (deep : DeepEnough (store s) p depth) (ok : p ∉ (store s).failing) (prior : Option Snapshot) :
    ∃ snapshot, (Capture.visit (queries store) recursive depth p prior s).result = .ok snapshot ∧
      ∀ names, (at? names snapshot).map facts =
        if recursive = true ∨ names = [] then seen (store s) p prior names else none := by
  cases recursive with
  | true => simpa using visit_seen ht deep ok prior
  | false => simpa using visit_shallow ht deep ok prior

end

end Memory

end PathWatch
