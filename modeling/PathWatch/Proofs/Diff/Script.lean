import Mathlib.Data.List.Chain
import Mathlib.Data.List.Induction
import Mathlib.Data.Set.Insert
import PathWatch.Proofs.Diff
import PathWatch.Proofs.Snapshot.Paths
import PathWatch.Text.Split

/-! The changes between successive snapshots are orders to a set of lists of names.
Whoever carries them out one by one always knows which lists are live, and no order
comes out of turn. -/
namespace PathWatch

namespace ChangeEvent

/-- What a change does to the lists of names that are known to be live. `path` reads the list of
names off an identity. A list goes with all that lies below it. -/
def carryOut (path : FileId → List String) (known : Set (List String)) (e : ChangeEvent) :
    Set (List String) :=
  match e.kind with
  | .created => insert (path e.file) known
  | .deleted => {q | q ∈ known ∧ ¬ path e.file <+: q}
  | .changed => known

/-- What is created is not known and its parent is; what is deleted or changed is known. -/
def Applicable (path : FileId → List String) (known : Set (List String)) (e : ChangeEvent) : Prop :=
  match e.kind with
  | .created => path e.file ∉ known ∧ (path e.file ≠ [] → (path e.file).dropLast ∈ known)
  | .deleted => path e.file ∈ known
  | .changed => path e.file ∈ known

end ChangeEvent

namespace Snapshot

def live (s : Snapshot) : Set (List String) := {q | s.Live q}

def changes : Snapshot → List Snapshot → List ChangeEvent
  | _, [] => []
  | s, t :: later => diff (some s) t ++ changes t later

/-- The list of names can be read off the identity of each live node, as it can wherever
identities are an injective function of the lists. -/
def Legible (path : FileId → List String) (s : Snapshot) : Prop :=
  ∀ q t, s.Live q → descend? q s = some t → path t.id = q

def Unturned (s t : Snapshot) : Prop :=
  ∀ q a b, s.Live q → descend? q s = some a → t.Live q → descend? q t = some b →
    a.isFolder = true → b.isFolder = true

theorem legible_iff {path : FileId → List String} {s : Snapshot} :
    s.Legible path ↔ ∀ q ∈ s.paths, ∀ t ∈ at? q s, path t.id = q := by
  constructor
  · intro h q _ t ht
    obtain ⟨live, node⟩ := at?_eq_some_iff.1 ht
    exact h q t live node
  · intro h q t live node
    exact h q (mem_paths_of_descend? node) t (at?_eq_some_iff.2 ⟨live, node⟩)

theorem unturned_iff {s t : Snapshot} : Unturned s t ↔
    ∀ q ∈ s.paths, ∀ a ∈ at? q s, ∀ b ∈ at? q t, a.isFolder = true → b.isFolder = true := by
  constructor
  · intro h q _ a ha b hb
    obtain ⟨before, was⟩ := at?_eq_some_iff.1 ha
    obtain ⟨now, node⟩ := at?_eq_some_iff.1 hb
    exact h q a b before was now node
  · intro h q a b before was now node
    exact h q (mem_paths_of_descend? was) a (at?_eq_some_iff.2 ⟨before, was⟩) b
      (at?_eq_some_iff.2 ⟨now, node⟩)

instance (path : FileId → List String) (s : Snapshot) : Decidable (s.Legible path) :=
  decidable_of_iff _ legible_iff.symm

instance (s t : Snapshot) : Decidable (Unturned s t) := decidable_of_iff _ unturned_iff.symm

section

variable {old new : Snapshot} {q : List String} {e : ChangeEvent}

theorem liveIn_some : LiveIn (some old) q ↔ old.Live q := by
  constructor
  · intro h
    obtain ⟨s, hs, live⟩ := h
    cases hs
    exact live
  · intro h
    exact ⟨old, rfl, h⟩

namespace Reports

theorem of_created (h : Reports (some old) new q e) (kind : e.kind = .created) :
    ¬ old.Live q ∧ new.Live q := by
  cases h with
  | created now before => exact ⟨fun live => before (liveIn_some.2 live), now⟩
  | changed => cases kind
  | deleted => cases kind

theorem of_deleted (h : Reports (some old) new q e) (kind : e.kind = .deleted) :
    old.Live q ∧ ¬ new.Live q ∧ Kept new q := by
  cases h with
  | created => cases kind
  | changed => cases kind
  | deleted now old_eq before _ kept =>
    cases old_eq
    exact ⟨before, now, kept⟩

theorem of_changed (h : Reports (some old) new q e) (kind : e.kind = .changed) :
    old.Live q ∧ new.Live q := by
  cases h with
  | created => cases kind
  | changed now old_eq before =>
    cases old_eq
    exact ⟨before, now⟩
  | deleted => cases kind

theorem legible {path : FileId → List String} (hs : old.Legible path) (ht : new.Legible path)
    (h : Reports (some old) new q e) : path e.file = q := by
  cases h with
  | created now _ node => exact ht q _ now node
  | changed now _ _ _ node => exact ht q _ now node
  | deleted _ old_eq before was =>
    cases old_eq
    exact hs q _ before was

end Reports

theorem exists_deleted_above (unturned : Unturned old new) (before : old.Live q)
    (gone : ¬ new.Live q) : ∃ p e, p <+: q ∧ e.kind = .deleted ∧ Reports (some old) new p e := by
  induction q using List.reverseRecOn with
  | nil =>
    obtain ⟨s, was⟩ := before.1
    exact ⟨[], _, List.prefix_rfl, rfl, .deleted gone rfl before was (kept_nil new)⟩
  | append_singleton p name ih =>
    have above : p <+: p ++ [name] := List.prefix_append p [name]
    have parent := before.above above
    by_cases still : new.Live p
    · obtain ⟨a, ha⟩ := parent.1
      obtain ⟨b, hb⟩ := still.1
      have folder := unturned p a b parent ha still hb (before.folder_above above (by simp) ha)
      have kept : Kept new (p ++ [name]) := by
        refine .inr ⟨b, ?_⟩
        rw [List.dropLast_concat]
        exact ⟨still, hb, folder⟩
      obtain ⟨s, was⟩ := before.1
      exact ⟨_, _, List.prefix_rfl, rfl, .deleted gone rfl before was kept⟩
    · obtain ⟨r, e, below, deleted⟩ := ih parent still
      exact ⟨r, e, below.trans above, deleted⟩

end

section

variable (path : FileId → List String) (known : Set (List String)) (q : List String)

theorem mem_carryOut (e : ChangeEvent) : q ∈ e.carryOut path known ↔
    (q ∈ known ∨ e.kind = .created ∧ path e.file = q) ∧
      (e.kind = .deleted → ¬ path e.file <+: q) := by
  rw [ChangeEvent.carryOut]
  cases e.kind with
  | created => simp [Set.mem_insert_iff, or_comm, eq_comm]
  | deleted => simp
  | changed => simp

theorem mem_foldl_carryOut {es : List ChangeEvent}
    (apart : ∀ d ∈ es, d.kind = .deleted → ∀ e ∈ es, e.kind = .created →
      ¬ path d.file <+: path e.file) :
    q ∈ es.foldl (ChangeEvent.carryOut path) known ↔
      (q ∈ known ∨ ∃ e ∈ es, e.kind = .created ∧ path e.file = q) ∧
        ∀ d ∈ es, d.kind = .deleted → ¬ path d.file <+: q := by
  induction es using List.reverseRecOn with
  | nil => simp
  | append_singleton es e ih =>
    have before := ih fun d hd deleted c hc =>
      apart d (List.mem_append_left _ hd) deleted c (List.mem_append_left _ hc)
    -- nothing that was deleted before lies above what is created now
    have spared : e.kind = .created ∧ path e.file = q →
        ∀ d ∈ es, d.kind = .deleted → ¬ path d.file <+: q := by
      intro now d hd deleted
      obtain ⟨created, rfl⟩ := now
      exact apart d (List.mem_append_left _ hd) deleted e (by simp) created
    rw [List.foldl_append, List.foldl_cons, List.foldl_nil, mem_carryOut, before,
      List.forall_mem_append, List.forall_mem_singleton]
    constructor
    · intro h
      obtain ⟨⟨there | ⟨c, hc, now⟩, above⟩ | now, last⟩ := h
      · exact ⟨.inl there, above, last⟩
      · exact ⟨.inr ⟨c, List.mem_append_left _ hc, now⟩, above, last⟩
      · exact ⟨.inr ⟨e, by simp, now⟩, spared now, last⟩
    · intro h
      obtain ⟨there | ⟨c, hc, now⟩, above, last⟩ := h
      · exact ⟨.inl ⟨.inl there, above⟩, last⟩
      · rcases List.mem_append.1 hc with hc | hc
        · exact ⟨.inl ⟨.inr ⟨c, hc, now⟩, above⟩, last⟩
        · exact ⟨.inr (List.mem_singleton.1 hc ▸ now), last⟩

end

theorem lt_of_above {p q : List String} (h : p <+: q) (ne : p ≠ q) : p < q := by
  obtain ⟨r, rfl⟩ := h
  cases r with
  | nil => exact absurd (List.append_nil p).symm ne
  | cons name r =>
    have less : p ++ [] < p ++ name :: r := List.append_left_lt .nil
    rwa [List.append_nil] at less

theorem above_dropLast {p q : List String} (h : p <+: q) (ne : p ≠ q) : p <+: q.dropLast := by
  obtain ⟨r, rfl⟩ := h
  have more : r ≠ [] := fun e => ne (by rw [e, List.append_nil])
  rw [List.dropLast_append_of_ne_nil more]
  exact List.prefix_append p r.dropLast

structure Script (path : FileId → List String) (old new : Snapshot) (es : List ChangeEvent) :
    Prop where
  sorted : (es.map fun e => path e.file).Pairwise (· < ·)
  told : ∀ q e, Reports (some old) new q e ↔ e ∈ es ∧ path e.file = q

theorem script_diff {path : FileId → List String} {old new : Snapshot} (hs : old.Legible path)
    (ht : new.Legible path) : Script path old new (diff (some old) new) := by
  obtain ⟨es, sorted, entry, told⟩ := exists_entries (some old) new
  have report (q : List String) (e : ChangeEvent) :
      Reports (some old) new q e ↔ (q, e) ∈ es := by
    rw [entry, reports_iff]
  have names : (diff (some old) new).map (fun e => path e.file) = es.map Prod.fst := by
    rw [told, List.map_map]
    refine List.map_congr_left ?_
    intro x hx
    exact ((report x.1 x.2).2 hx).legible hs ht
  refine ⟨names ▸ sorted, ?_⟩
  intro q e
  rw [report, told, List.mem_map]
  constructor
  · intro h
    exact ⟨⟨(q, e), h, rfl⟩, ((report q e).2 h).legible hs ht⟩
  · intro h
    obtain ⟨⟨⟨p, _⟩, hx, rfl⟩, rfl⟩ := h
    have same := ((report p _).2 hx).legible hs ht
    exact same ▸ hx

namespace Script

variable {path : FileId → List String} {old new : Snapshot} {es : List ChangeEvent}

theorem report (h : Script path old new es) {e : ChangeEvent} (he : e ∈ es) :
    Reports (some old) new (path e.file) e :=
  (h.told _ e).2 ⟨he, rfl⟩

theorem apart (h : Script path old new es) {d e : ChangeEvent} (hd : d ∈ es)
    (deleted : d.kind = .deleted) (he : e ∈ es) (created : e.kind = .created) :
    ¬ path d.file <+: path e.file := by
  intro above
  obtain ⟨_, gone, _⟩ := (h.report hd).of_deleted deleted
  exact gone (((h.report he).of_created created).2.above above)

theorem carriedOut (h : Script path old new es) (unturned : Unturned old new) :
    es.foldl (ChangeEvent.carryOut path) old.live = new.live := by
  ext q
  rw [mem_foldl_carryOut path old.live q fun d hd deleted e he => h.apart hd deleted he]
  constructor
  · intro now
    obtain ⟨before | ⟨e, he, created, rfl⟩, spared⟩ := now
    · by_contra gone
      obtain ⟨p, d, above, deleted, told⟩ := exists_deleted_above unturned before gone
      obtain ⟨hd, rfl⟩ := (h.told p d).1 told
      exact spared d hd deleted above
    · exact ((h.report he).of_created created).2
  · intro now
    have live : new.Live q := now
    constructor
    · by_cases before : old.Live q
      · exact .inl before
      · obtain ⟨t, ht⟩ := live.1
        have told := Reports.created live (mt liveIn_some.1 before) ht
        obtain ⟨he, same⟩ := (h.told q _).1 told
        exact .inr ⟨_, he, rfl, same⟩
    · intro d hd deleted above
      exact ((h.report hd).of_deleted deleted).2.1 (live.above above)

section

variable {front rest : List ChangeEvent} {e : ChangeEvent}

theorem mem_front (h : Script path old new (front ++ e :: rest)) (q : List String) :
    q ∈ front.foldl (ChangeEvent.carryOut path) old.live ↔
      (old.Live q ∨ ∃ c ∈ front, c.kind = .created ∧ path c.file = q) ∧
        ∀ d ∈ front, d.kind = .deleted → ¬ path d.file <+: q :=
  mem_foldl_carryOut path old.live q fun _ hd deleted _ hc =>
    h.apart (List.mem_append_left _ hd) deleted (List.mem_append_left _ hc)

theorem mem_front_of_live (h : Script path old new (front ++ e :: rest)) {q : List String}
    (now : new.Live q) (before : ¬ old.Live q → ∃ c ∈ front, c.kind = .created ∧ path c.file = q) :
    q ∈ front.foldl (ChangeEvent.carryOut path) old.live := by
  rw [h.mem_front]
  refine ⟨or_iff_not_imp_left.2 before, ?_⟩
  intro d hd deleted above
  obtain ⟨_, gone, _⟩ := (h.report (List.mem_append_left _ hd)).of_deleted deleted
  exact gone (now.above above)

theorem front_lt (h : Script path old new (front ++ e :: rest)) {c : ChangeEvent}
    (hc : c ∈ front) : path c.file < path e.file := by
  have sorted := h.sorted
  rw [List.map_append, List.pairwise_append] at sorted
  exact sorted.2.2 _ (List.mem_map_of_mem hc) _ (by simp)

theorem mem_front_of_lt (h : Script path old new (front ++ e :: rest)) {c : ChangeEvent}
    (hc : c ∈ front ++ e :: rest) (less : path c.file < path e.file) : c ∈ front := by
  have sorted := h.sorted
  rw [List.map_append, List.pairwise_append, List.map_cons, List.pairwise_cons] at sorted
  rcases List.mem_append.1 hc with hc | hc
  · exact hc
  · rcases List.mem_cons.1 hc with rfl | hc
    · exact absurd less (List.lt_irrefl _)
    · exact absurd less (List.lt_asymm (sorted.2.1.1 _ (List.mem_map_of_mem hc)))

theorem applicable (h : Script path old new (front ++ e :: rest)) :
    e.Applicable path (front.foldl (ChangeEvent.carryOut path) old.live) := by
  have told := h.report (e := e) (by simp)
  rw [ChangeEvent.Applicable]
  cases kind : e.kind with
  | created =>
    obtain ⟨before, now⟩ := told.of_created kind
    constructor
    · rw [h.mem_front]
      intro known
      obtain ⟨live | ⟨c, hc, _, same⟩, _⟩ := known
      · exact before live
      · exact List.lt_irrefl _ (same ▸ h.front_lt hc)
    · intro below
      have above : (path e.file).dropLast <+: path e.file := List.dropLast_prefix _
      have parent := now.above above
      refine h.mem_front_of_live parent ?_
      intro missing
      obtain ⟨t, ht⟩ := parent.1
      obtain ⟨hc, same⟩ := (h.told _ _).1 (.created parent (mt liveIn_some.1 missing) ht)
      refine ⟨_, h.mem_front_of_lt hc ?_, rfl, same⟩
      rw [same]
      refine lt_of_above above ?_
      intro e'
      have length := congrArg List.length e'
      rw [List.length_dropLast] at length
      have := List.length_pos_iff.2 below
      omega
  | deleted =>
    obtain ⟨before, gone, kept⟩ := told.of_deleted kind
    dsimp only
    rw [h.mem_front]
    refine ⟨.inl before, ?_⟩
    intro d hd deleted above
    obtain ⟨_, gone', _⟩ := (h.report (List.mem_append_left _ hd)).of_deleted deleted
    have ne : path d.file ≠ path e.file := fun same => List.lt_irrefl _ (same ▸ h.front_lt hd)
    rcases kept with root | ⟨_, parent, _⟩
    · exact ne ((List.prefix_nil.1 (root ▸ above)).trans root.symm)
    · exact gone' (parent.above (above_dropLast above ne))
  | changed =>
    obtain ⟨before, now⟩ := told.of_changed kind
    exact h.mem_front_of_live now fun missing => absurd before missing

end

end Script

/-- Whoever carries out the changes between successive snapshots one after the other can carry out
each when its turn has come, and knows after each comparison exactly what is live in the newer
snapshot. -/
theorem known_is_live {path : FileId → List String} {s : Snapshot} {later : List Snapshot}
    (legible : ∀ t ∈ s :: later, t.Legible path) (unturned : (s :: later).IsChain Unturned) :
    (∀ front e rest, changes s later = front ++ e :: rest →
      e.Applicable path (front.foldl (ChangeEvent.carryOut path) s.live)) ∧
    ∀ done t rest, later = done ++ t :: rest →
      (changes s (done ++ [t])).foldl (ChangeEvent.carryOut path) s.live = t.live := by
  induction later generalizing s with
  | nil => simp [changes]
  | cons t later ih =>
    obtain ⟨first, chain⟩ := List.isChain_cons_cons.1 unturned
    have script : Script path s t (diff (some s) t) :=
      script_diff (legible s (by simp)) (legible t (by simp))
    have known := script.carriedOut first
    obtain ⟨applicable, live⟩ := ih (fun u hu => legible u (List.mem_cons_of_mem s hu)) chain
    constructor
    · intro front e rest split
      rw [changes, List.append_eq_append_iff] at split
      rcases split with ⟨before, rfl, split⟩ | ⟨after, split, cut⟩
      · rw [List.foldl_append, known]
        exact applicable before e rest split
      · cases after with
        | nil =>
          rw [List.append_nil] at split
          rw [← split, known]
          exact applicable [] e rest cut.symm
        | cons c after =>
          obtain ⟨rfl, _⟩ := List.cons.inj cut
          rw [split] at script
          exact script.applicable
    · intro done u rest split
      cases done with
      | nil =>
        obtain ⟨rfl, rfl⟩ := List.cons.inj split
        simpa [changes] using known
      | cons v done =>
        obtain ⟨rfl, rest⟩ := List.cons.inj split
        rw [List.cons_append, changes, List.foldl_append, known]
        exact live done u _ rest

def slashed (id : FileId) : List String := ((Text.splitOn '/' id.text.toList).map String.ofList).tail

def withFolder : Snapshot :=
  .folder ⟨"d"⟩ ⟨1⟩ [("a", .folder ⟨"d/a"⟩ ⟨1⟩ [("x", .file ⟨"d/a/x"⟩ ⟨1⟩ 0)]),
    ("b", .file ⟨"d/b"⟩ ⟨1⟩ 0)]

def withFileTurned : Snapshot :=
  .folder ⟨"d"⟩ ⟨2⟩ [("b", .folder ⟨"d/b"⟩ ⟨2⟩ [("y", .file ⟨"d/b/y"⟩ ⟨2⟩ 0)])]

theorem known_while_file_turns :
    let gone : List ChangeEvent := [.deleted ⟨"d/a"⟩, .changed ⟨"d/b"⟩]
    changes withFolder [withFileTurned, .missing ⟨"d"⟩] =
        gone ++ .created ⟨"d/b/y"⟩ :: [.deleted ⟨"d"⟩] ∧
      (ChangeEvent.created ⟨"d/b/y"⟩).Applicable slashed
        (gone.foldl (ChangeEvent.carryOut slashed) withFolder.live) ∧
      (changes withFolder [withFileTurned]).foldl (ChangeEvent.carryOut slashed) withFolder.live =
        withFileTurned.live := by
  intro gone
  have told : changes withFolder [withFileTurned, .missing ⟨"d"⟩] =
      gone ++ .created ⟨"d/b/y"⟩ :: [.deleted ⟨"d"⟩] := by decide +kernel
  have legible : ∀ t ∈ [withFolder, withFileTurned, .missing ⟨"d"⟩], t.Legible slashed := by
    decide +kernel
  have unturned : [withFolder, withFileTurned, .missing ⟨"d"⟩].IsChain Unturned := by
    decide +kernel
  obtain ⟨applicable, live⟩ := known_is_live legible unturned
  exact ⟨told, applicable gone _ _ told, live [] withFileTurned [.missing ⟨"d"⟩] rfl⟩

end Snapshot

end PathWatch
