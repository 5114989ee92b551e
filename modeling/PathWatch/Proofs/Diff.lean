import PathWatch.Diff
import PathWatch.Proofs.Snapshot.Live
import PathWatch.Proofs.Text.ByteOrder

/-! The changes between two snapshots, told path by path: what is said about a
list of names depends on the nodes that it leads to on either side and on its
parent alone, and the lists come depth first, in the order of their names. -/
namespace PathWatch.Snapshot

/-- A path comes before what lies below it, and siblings in the order of the bytes
of their names. -/
def Earlier (p q : List String) : Prop := p.map Text.utf8Bytes < q.map Text.utf8Bytes

theorem Earlier.of_lt {p q : List String} (h : p < q) : Earlier p q :=
  List.map_lt (fun _ _ h => Text.utf8Bytes_lt_iff.2 h) h

def LiveIn (old : Option Snapshot) (q : List String) : Prop := ∃ s, old = some s ∧ s.Live q

def Differ (s t : Snapshot) : Prop :=
  s.isFolder ≠ t.isFolder ∨
    (s.isFolder = false ∧ t.isFolder = false ∧
      (s.facts.modified ≠ t.facts.modified ∨ s.facts.size ≠ t.facts.size))

/-- The list is the path itself, or leads to something in a folder that is there. -/
def Kept (new : Snapshot) (q : List String) : Prop :=
  q = [] ∨ ∃ t, new.Live q.dropLast ∧ descend? q.dropLast new = some t ∧ t.isFolder = true

inductive Reports (old : Option Snapshot) (new : Snapshot) (q : List String) : ChangeEvent → Prop
  | created {t : Snapshot} (now : new.Live q) (before : ¬ LiveIn old q)
      (node : descend? q new = some t) : Reports old new q (.created t.id)
  | changed {o s t : Snapshot} (now : new.Live q) (old_eq : old = some o) (before : o.Live q)
      (was : descend? q o = some s) (node : descend? q new = some t) (differ : Differ s t) :
      Reports old new q (.changed t.id)
  | deleted {o s : Snapshot} (now : ¬ new.Live q) (old_eq : old = some o) (before : o.Live q)
      (was : descend? q o = some s) (kept : Kept new q) : Reports old new q (.deleted s.id)

def Verdict (before after : Option Snapshot) (kept : Prop) (e : ChangeEvent) : Prop :=
  match before, after with
  | none, none => False
  | none, some t => e = .created t.id
  | some s, some t => Differ s t ∧ e = .changed t.id
  | some s, none => kept ∧ e = .deleted s.id

theorem not_verdict_self (node : Option Snapshot) (kept : Prop) (e : ChangeEvent) :
    ¬ Verdict node node kept e := by
  cases node with
  | none => exact not_false
  | some s => simp [Verdict, Differ]

theorem differs_iff (s t : Snapshot) : s.facts.differs t.facts = true ↔ Differ s t := by
  simp only [Facts.differs, Differ, isFolder, Bool.or_eq_true, bne_iff_ne, Bool.and_eq_true,
    Bool.not_eq_true', ne_eq]
  cases s.facts.isFolder <;> cases t.facts.isFolder <;> simp

theorem kept_nil (new : Snapshot) : Kept new [] := .inl rfl

theorem kept_iff {new : Snapshot} {q : List String} :
    Kept new q ↔ q = [] ∨ ∃ t, at? q.dropLast new = some t ∧ t.isFolder = true := by
  refine or_congr_right ?_
  constructor
  · intro h
    obtain ⟨t, hl, ht, hf⟩ := h
    exact ⟨t, at?_eq_some_iff.2 ⟨hl, ht⟩, hf⟩
  · intro h
    obtain ⟨t, ht, hf⟩ := h
    exact ⟨t, live_iff.2 ⟨t, ht⟩, descend?_of_at? ht, hf⟩

theorem reports_iff {old : Option Snapshot} {new : Snapshot} {q : List String} {e : ChangeEvent} :
    Reports old new q e ↔ Verdict (old.bind (at? q)) (at? q new) (Kept new q) e := by
  constructor
  · intro h
    cases h with
    | created now before node =>
      have hb : old.bind (at? q) = none := by
        rw [Option.bind_eq_none_iff]
        intro s hs
        exact at?_eq_none_iff.2 fun hl => before ⟨s, hs, hl⟩
      simp [hb, at?_eq_some_iff.2 ⟨now, node⟩, Verdict]
    | changed now old_eq before was node differ =>
      simp [old_eq, at?_eq_some_iff.2 ⟨before, was⟩, at?_eq_some_iff.2 ⟨now, node⟩, Verdict, differ]
    | deleted now old_eq before was kept =>
      simp [old_eq, at?_eq_some_iff.2 ⟨before, was⟩, at?_eq_none_iff.2 now, Verdict, kept]
  · intro h
    cases hb : old.bind (at? q) with
    | none =>
      have hn : ¬ LiveIn old q := by
        intro h
        obtain ⟨s, rfl, hl⟩ := h
        exact at?_eq_none_iff.1 hb hl
      cases ha : at? q new with
      | none => simp [Verdict, hb, ha] at h
      | some t =>
        simp only [Verdict, hb, ha] at h
        subst h
        exact .created (live_iff.2 ⟨t, ha⟩) hn (descend?_of_at? ha)
    | some s =>
      obtain ⟨o, ho, hs⟩ := Option.bind_eq_some_iff.1 hb
      have hl : o.Live q := live_iff.2 ⟨s, hs⟩
      cases ha : at? q new with
      | none =>
        simp only [Verdict, hb, ha] at h
        rw [h.2]
        exact .deleted (at?_eq_none_iff.1 ha) ho hl (descend?_of_at? hs) h.1
      | some t =>
        simp only [Verdict, hb, ha] at h
        rw [h.2]
        exact .changed (live_iff.2 ⟨t, ha⟩) ho hl (descend?_of_at? hs) (descend?_of_at? ha) h.1

theorem mem_names {new old : List (String × Snapshot)} {name : String} :
    name ∈ names new old ↔ name ∈ Keyed.keys new ∨ name ∈ Keyed.keys old := by
  have h : ∀ ps : List (String × Snapshot),
      name ∈ Keyed.keys (ps.foldr (fun p ns => Keyed.insert p.1 () ns) []) ↔
        name ∈ Keyed.keys ps := by
    intro ps
    induction ps with
    | nil => rfl
    | cons p ps ih =>
      rw [List.foldr_cons, Keyed.mem_keys_insert, ih]
      simp [Keyed.keys]
  have ha := h (new ++ old)
  rw [Keyed.keys, Keyed.keys, List.map_append, List.mem_append] at ha
  exact ha

theorem names_sorted (new old : List (String × Snapshot)) : (names new old).Pairwise (· < ·) := by
  have h : ∀ ps : List (String × Snapshot),
      Keyed.Ordered (ps.foldr (fun p ns => Keyed.insert p.1 () ns) []) := by
    intro ps
    induction ps with
    | nil => exact .nil
    | cons p ps ih => exact Keyed.ordered_insert p.1 () ih
  exact List.pairwise_map.2 (h (new ++ old))

def before (old : Option Snapshot) : List (String × Snapshot) :=
  ((old.filter present).map contents).getD []

theorem before_eq (old : Option Snapshot) : before old = (old.map contents).getD [] := by
  cases old with
  | none => rfl
  | some s => cases h : s.present <;> simp [before, Option.filter, h, contents]

theorem bind_at?_cons (old : Option Snapshot) (name : String) (q : List String) :
    old.bind (at? (name :: q)) = ((before old).lookup name).bind (at? q) := by
  rw [before_eq]
  cases old <;> rfl

theorem bind_at?_nil (old : Option Snapshot) : old.bind (at? []) = old.filter present := by
  cases old with
  | none => rfl
  | some s => cases h : s.present <;> simp [at?_nil, Option.filter, h]

theorem diff_node (old : Option Snapshot) (f : Facts) (cs : List (String × Snapshot)) :
    diff old (.node f cs) =
      ownChange ((old.filter present).map facts) f ++
        if f.present && f.isFolder then
          (names cs (before old)).flatMap fun name =>
            match cs.lookup name with
            | some s => diff ((before old).lookup name) s
            | none => departure ((before old).lookup name)
        else [] := by
  rw [diff]
  congr 1
  split
  · refine congrArg (List.flatMap · _) (funext fun name => ?_)
    rw [lookup_diffEach]
    cases cs.lookup name <;> rfl
  · rfl

theorem at?_cons_of_folder {f : Facts} {cs : List (String × Snapshot)}
    (h : f.present = true ∧ f.isFolder = true) (name : String) (q : List String) :
    at? (name :: q) (.node f cs) = (cs.lookup name).bind (at? q) := by
  rw [at?_cons, contents_of_folder (s := .node f cs) h.1 h.2]
  rfl

theorem at?_cons_of_not_folder {f : Facts} {cs : List (String × Snapshot)}
    (h : ¬ (f.present = true ∧ f.isFolder = true)) (name : String) (q : List String) :
    at? (name :: q) (.node f cs) = none := by
  rw [at?_cons, contents_eq_nil (s := .node f cs) h]
  rfl

theorem not_kept_cons {f : Facts} {cs : List (String × Snapshot)}
    (h : ¬ (f.present = true ∧ f.isFolder = true)) (name : String) (q : List String) :
    ¬ Kept (.node f cs) (name :: q) := by
  rw [kept_iff]
  intro kept
  rcases kept with hq | ⟨t, ht, hf⟩
  · cases hq
  · cases q with
    | nil =>
      rw [List.dropLast_singleton, at?_nil] at ht
      split at ht
      · cases ht
        exact h ⟨‹_›, hf⟩
      · cases ht
    | cons m q =>
      rw [List.dropLast_cons_cons, at?_cons_of_not_folder h] at ht
      cases ht

theorem kept_cons {f : Facts} {cs : List (String × Snapshot)}
    (h : f.present = true ∧ f.isFolder = true) (name : String) (q : List String) :
    Kept (.node f cs) (name :: q) ↔ q = [] ∨ ∃ s, cs.lookup name = some s ∧ Kept s q := by
  cases q with
  | nil =>
    refine iff_of_true (kept_iff.2 (.inr ⟨.node f cs, ?_, h.2⟩)) (.inl rfl)
    exact if_pos h.1
  | cons m q =>
    simp only [kept_iff, List.dropLast_cons_cons, at?_cons_of_folder h, reduceCtorEq, false_or,
      Option.bind_eq_some_iff]
    constructor
    · intro kept
      obtain ⟨t, ⟨s, hs, ht⟩, hf⟩ := kept
      exact ⟨s, hs, t, ht, hf⟩
    · intro kept
      obtain ⟨s, hs, t, ht, hf⟩ := kept
      exact ⟨t, ⟨s, hs, ht⟩, hf⟩

def Entries (old : Option Snapshot) (new : Snapshot)
    (es : List (List String × ChangeEvent)) : Prop :=
  (es.map Prod.fst).Pairwise (· < ·) ∧
    (∀ q e, (q, e) ∈ es ↔ Verdict (old.bind (at? q)) (at? q new) (Kept new q) e) ∧
    diff old new = es.map Prod.snd

theorem mem_ownChange {old : Option Snapshot} {f : Facts} {cs : List (String × Snapshot)}
    {e : ChangeEvent} :
    e ∈ ownChange ((old.filter present).map facts) f ↔
      Verdict (old.bind (at? [])) (at? [] (.node f cs)) (Kept (.node f cs) []) e := by
  have hk : Kept (.node f cs) [] := kept_nil _
  have hp : (Snapshot.node f cs).present = f.present := rfl
  rw [bind_at?_nil, at?_nil, hp]
  cases old.filter present with
  | none => cases h : f.present <;> simp [ownChange, h, Verdict, id, facts]
  | some s =>
    cases h : f.present with
    | false => simp [ownChange, h, Verdict, hk, id]
    | true =>
      have hd : s.facts.differs f = true ↔ Differ s (.node f cs) := differs_iff s (.node f cs)
      by_cases d : s.facts.differs f = true
      · simp only [ownChange, h, Verdict, Option.map_some, if_true, ← hd, d, true_and,
          List.mem_singleton]
        rfl
      · simp [ownChange, h, Verdict, ← hd, d]

theorem departure_entries (old : Option Snapshot) :
    ∃ es : List (List String × ChangeEvent), (es.map Prod.fst).Pairwise (· < ·) ∧
      (∀ q e, (q, e) ∈ es ↔ Verdict (old.bind (at? q)) none (q = []) e) ∧
      departure old = es.map Prod.snd := by
  have hv : ∀ (o : Option Snapshot) q e, (q ≠ [] ∨ o.bind (at? q) = none) →
      ¬ Verdict (o.bind (at? q)) none (q = []) e := by
    intro o q e h hv
    cases hb : o.bind (at? q) with
    | none => simp [hb, Verdict] at hv
    | some s => simp_all [Verdict]
  cases old with
  | none =>
    refine ⟨[], .nil, ?_, rfl⟩
    intro q e
    exact iff_of_false List.not_mem_nil (hv none q e (.inr rfl))
  | some s =>
    by_cases hp : s.present = true
    · refine ⟨[([], .deleted s.id)], by simp, ?_, by simp [departure, hp]⟩
      intro q e
      by_cases hq : q = []
      · subst hq
        simp [at?_nil, hp, Verdict]
      · exact iff_of_false (by simp [hq]) (hv (some s) q e (.inl hq))
    · refine ⟨[], .nil, ?_, by simp [departure, hp]⟩
      intro q e
      refine iff_of_false List.not_mem_nil (hv (some s) q e ?_)
      cases q with
      | nil => exact .inr (by simp [at?_nil, hp])
      | cons => exact .inl (by simp)

theorem entries_below (old : Option Snapshot) {f : Facts} {cs : List (String × Snapshot)}
    (h : f.present = true ∧ f.isFolder = true) (name : String)
    (ih : ∀ s, (name, s) ∈ cs → ∀ old, ∃ es, Entries old s es) :
    ∃ es : List (List String × ChangeEvent), (es.map Prod.fst).Pairwise (· < ·) ∧
      (∀ q e, (q, e) ∈ es ↔
        Verdict (old.bind (at? (name :: q))) (at? (name :: q) (.node f cs))
          (Kept (.node f cs) (name :: q)) e) ∧
      (match cs.lookup name with
        | some s => diff ((before old).lookup name) s
        | none => departure ((before old).lookup name)) = es.map Prod.snd := by
  simp only [bind_at?_cons, at?_cons_of_folder h, kept_cons h]
  cases hc : cs.lookup name with
  | none =>
    obtain ⟨es, hs, hm, hd⟩ := departure_entries ((before old).lookup name)
    exact ⟨es, hs, by simpa using hm, hd⟩
  | some s =>
    obtain ⟨es, hs, hm, hd⟩ := ih s (Keyed.mem_of_lookup hc) ((before old).lookup name)
    refine ⟨es, hs, ?_, hd⟩
    intro q e
    have hk : (q = [] ∨ ∃ t, some s = some t ∧ Kept t q) ↔ Kept s q := by
      constructor
      · intro h
        rcases h with rfl | ⟨t, ht, hk⟩
        · exact kept_nil s
        · cases ht
          exact hk
      · intro hk
        exact .inr ⟨s, rfl, hk⟩
    rw [hm, hk]
    rfl

theorem mem_names_of_verdict {old : Option Snapshot} {f : Facts} {cs : List (String × Snapshot)}
    (h : f.present = true ∧ f.isFolder = true) {name : String} {q : List String} {kept : Prop}
    {e : ChangeEvent}
    (hv : Verdict (old.bind (at? (name :: q))) (at? (name :: q) (.node f cs)) kept e) :
    name ∈ names cs (before old) := by
  by_contra hn
  rw [mem_names, not_or, ← Keyed.lookup_eq_none_iff, ← Keyed.lookup_eq_none_iff] at hn
  simp [bind_at?_cons, at?_cons_of_folder h, hn.1, hn.2, Verdict] at hv

def ownEntries (old : Option Snapshot) (f : Facts) : List (List String × ChangeEvent) :=
  (ownChange ((old.filter present).map facts) f).map fun e => ([], e)

def under (name : String) (es : List (List String × ChangeEvent)) :
    List (List String × ChangeEvent) :=
  es.map fun p => (name :: p.1, p.2)

theorem mem_under {name : String} {es : List (List String × ChangeEvent)} {q : List String}
    {e : ChangeEvent} : (q, e) ∈ under name es ↔ ∃ r, q = name :: r ∧ (r, e) ∈ es := by
  simp only [under, List.mem_map, Prod.mk.injEq, Prod.exists]
  constructor
  · intro h
    obtain ⟨r, e, h, rfl, rfl⟩ := h
    exact ⟨r, rfl, h⟩
  · intro h
    obtain ⟨r, rfl, h⟩ := h
    exact ⟨r, e, h, rfl, rfl⟩

theorem mem_ownEntries (cs : List (String × Snapshot)) {old : Option Snapshot} {f : Facts}
    {q : List String} {e : ChangeEvent} : (q, e) ∈ ownEntries old f ↔
      q = [] ∧ Verdict (old.bind (at? [])) (at? [] (.node f cs)) (Kept (.node f cs) []) e := by
  rw [← mem_ownChange, ownEntries, List.mem_map]
  constructor
  · intro h
    obtain ⟨e, he, h⟩ := h
    cases h
    exact ⟨rfl, he⟩
  · intro h
    obtain ⟨rfl, he⟩ := h
    exact ⟨e, he, rfl⟩

theorem ownEntries_sorted (old : Option Snapshot) (f : Facts) :
    ((ownEntries old f).map Prod.fst).Pairwise (· < ·) := by
  have hl : (ownEntries old f).length ≤ 1 := by
    rw [ownEntries, List.length_map]
    unfold ownChange
    split <;> try split
    all_goals simp
  match ownEntries old f, hl with
  | [], _ => exact .nil
  | [p], _ => exact List.pairwise_singleton _ _

theorem under_sorted {names : List String} (hn : names.Pairwise (· < ·))
    {below : String → List (List String × ChangeEvent)}
    (hb : ∀ name, ((below name).map Prod.fst).Pairwise (· < ·)) :
    ((names.flatMap fun name => under name (below name)).map Prod.fst).Pairwise (· < ·) := by
  rw [List.pairwise_map, List.pairwise_flatMap]
  constructor
  · intro name _
    refine List.pairwise_map.2 ((List.pairwise_map.1 (hb name)).imp ?_)
    intro p r h
    exact List.cons_lt_cons_self.2 h
  · refine hn.imp ?_
    intro m n h p hp r hr
    obtain ⟨p, _, rfl⟩ := List.mem_map.1 hp
    obtain ⟨r, _, rfl⟩ := List.mem_map.1 hr
    exact .rel h

theorem exists_entries (old : Option Snapshot) (new : Snapshot) : ∃ es, Entries old new es := by
  induction new using Snapshot.induction generalizing old with
  | node f cs ih =>
    by_cases h : f.present = true ∧ f.isFolder = true
    · have hex := fun name => entries_below old h name (fun s hs old => ih name s hs old)
      choose below hs hm hd using hex
      refine ⟨ownEntries old f ++
        (names cs (before old)).flatMap fun name => under name (below name), ?_, ?_, ?_⟩
      · rw [List.map_append, List.pairwise_append]
        refine ⟨ownEntries_sorted old f, under_sorted (names_sorted _ _) hs, ?_⟩
        -- the path itself comes before everything below it
        intro p hp r hr
        obtain ⟨⟨q, e⟩, hq, rfl⟩ := List.mem_map.1 hp
        obtain ⟨⟨q', e'⟩, hq', rfl⟩ := List.mem_map.1 hr
        obtain ⟨name, _, hn⟩ := List.mem_flatMap.1 hq'
        obtain ⟨r, rfl, _⟩ := mem_under.1 hn
        obtain ⟨rfl, _⟩ := (mem_ownEntries cs).1 hq
        exact .nil
      · intro q e
        rw [List.mem_append, mem_ownEntries cs, List.mem_flatMap]
        cases q with
        | nil => simp [mem_under]
        | cons name q =>
          simp only [reduceCtorEq, false_and, false_or, mem_under, List.cons.injEq]
          constructor
          · intro h
            obtain ⟨_, _, _, ⟨rfl, rfl⟩, hr⟩ := h
            exact (hm name q e).1 hr
          · intro hv
            exact ⟨name, mem_names_of_verdict h hv, q, ⟨rfl, rfl⟩, (hm name q e).2 hv⟩
      · rw [diff_node, if_pos (by simpa using h), List.map_append, List.map_flatMap]
        congr 1
        · simp [ownEntries, Function.comp_def]
        · refine congrArg (List.flatMap · _) (funext fun name => ?_)
          rw [hd]
          simp [under, Function.comp_def]
    · refine ⟨ownEntries old f, ownEntries_sorted old f, ?_, ?_⟩
      · intro q e
        rw [mem_ownEntries cs]
        cases q with
        | nil => simp
        | cons name q =>
          simp only [reduceCtorEq, false_and, at?_cons_of_not_folder h, false_iff]
          intro hv
          cases hb : old.bind (at? (name :: q)) <;> simp [hb, Verdict, not_kept_cons h] at hv
      · rw [diff_node, if_neg (by simpa using h)]
        simp [ownEntries, Function.comp_def]

/-- The changes between two snapshots are told in one pass over the lists of
names, in their order, and say about each list what there is to say about it. -/
theorem diff_reports (old : Option Snapshot) (new : Snapshot) :
    ∃ es : List (List String × ChangeEvent),
      (es.map Prod.fst).Pairwise Earlier ∧
      (∀ q e, (q, e) ∈ es ↔ Reports old new q e) ∧
      diff old new = es.map Prod.snd := by
  obtain ⟨es, hs, hm, hd⟩ := exists_entries old new
  refine ⟨es, hs.imp Earlier.of_lt, ?_, hd⟩
  intro q e
  rw [hm, reports_iff]

theorem filter_diff {old : Option Snapshot} {new : Snapshot} {q : List String}
    {keep : ChangeEvent → Bool} (own : ∀ r e,
      Verdict (old.bind (at? r)) (at? r new) (Kept new r) e → (keep e = true ↔ r = q)) :
    ((diff old new).filter keep).length ≤ 1 ∧ ∀ e, e ∈ (diff old new).filter keep ↔
      Verdict (old.bind (at? q)) (at? q new) (Kept new q) e := by
  obtain ⟨es, sorted, entry, told⟩ := exists_entries old new
  have only : (es.filter (keep ∘ Prod.snd)).Pairwise fun a b => a.1 < b.1 :=
    (List.pairwise_map.1 sorted).filter _
  have keys : ∀ a ∈ es.filter (keep ∘ Prod.snd), a.1 = q := by
    intro a ha
    obtain ⟨mem, kept⟩ := List.mem_filter.1 ha
    exact (own a.1 a.2 ((entry a.1 a.2).1 mem)).1 kept
  rw [told, List.filter_map]
  constructor
  · rw [List.length_map]
    match es.filter (keep ∘ Prod.snd), only, keys with
    | [], _, _ => exact Nat.zero_le 1
    | [_], _, _ => exact Nat.le_refl 1
    | a :: b :: rest, only, keys =>
      -- two entries of one list of names would not be in strict order
      have less := List.rel_of_pairwise_cons only List.mem_cons_self
      rw [keys a List.mem_cons_self, keys b (List.mem_cons_of_mem a List.mem_cons_self)] at less
      exact absurd less (List.lt_irrefl q)
  · intro e
    constructor
    · intro he
      obtain ⟨a, ha, rfl⟩ := List.mem_map.1 he
      have mem := (List.mem_filter.1 ha).1
      rw [← keys a ha]
      exact (entry a.1 a.2).1 mem
    · intro hv
      refine List.mem_map.2 ⟨(q, e), List.mem_filter.2 ⟨(entry q e).2 hv, ?_⟩, rfl⟩
      exact (own q e hv).2 rfl

end PathWatch.Snapshot
