import PathWatch.Proofs.Cycle.Reporting
import PathWatch.Proofs.Memory.World

/-! What a listener hears about a path in memory while paths come and go and fail
for a time. Nothing is heard of a path that is hidden, and as soon as it can be
observed again the listener hears how it has changed since it was observed last. -/
namespace PathWatch.Memory

open Snapshot PathWatch.Cycle

variable {L ρ : Type}

/-- The moment at which each path was last observed, once a poll at the moment `w` has observed
the paths that are not hidden. -/
def observe (p : Path) (moment : Path → World L ρ) (w : World L ρ) : Path → World L ρ :=
  fun q => if Hidden w.store p q then moment q else w

structure Tells (p : Path) (x : Watch Path) (moment : Path → World L ρ) : Prop where
  file : x.file = p
  known : ∃ snapshot, x.last = some snapshot ∧ ∀ names, (at? names snapshot).map facts =
    if x.recursive = true ∨ names = [] then (moment (p ++ names)).store.facts? (p ++ names)
    else none

section

variable {out : Outside L ρ} {p : Path} {x : Watch Path} {moment : Path → World L ρ}

variable (out) in
theorem Tells.poll (h : Tells p x moment) (w : World L ρ) :
    Tells p (polled x (visitOf out.env x w).result) (observe p moment w) := by
  obtain ⟨snapshot, last, known⟩ := h.known
  rw [Outside.visitOf_eq h.file]
  by_cases hf : p ∈ w.store.failing
  · have same : observe p moment w = moment := by
      funext q
      exact if_pos (.inl hf)
    rw [visit_failing hf, same]
    exact h
  · obtain ⟨found, hr, shows⟩ := visit_shows w.tree x.recursive (deepEnough_height w.store p) hf
      x.last
    rw [hr]
    refine ⟨h.file, found, rfl, ?_⟩
    intro names
    have scope : (polled x (.ok found)).recursive = x.recursive := rfl
    have shown : seen w.store p x.last names = if Hidden w.store p (p ++ names) then
        (if x.recursive = true ∨ names = [] then (moment (p ++ names)).store.facts? (p ++ names)
          else none) else w.store.facts? (p ++ names) := by
      rw [seen, last, Option.bind_some, known]
    rw [shows, shown, scope, observe]
    split
    · split
      · rfl
      · rfl
    · rfl

end

/-- What there is to hear about the path `q` below the watched path `p` between two moments, given
whether the file at `q` was altered meanwhile. -/
def due (p q : Path) (before after : Store) (altered : Bool) : List ChangeEvent :=
  match before.node? q, after.node? q with
  | none, none => []
  | none, some _ => [.created q.id]
  | some _, none =>
    if q = p ∨ ((after.node? q.dropLast).any fun n => n.content = .folder) then [.deleted q.id]
    else []
  | some n, some m =>
    match n.content, m.content with
    | .file _, .file _ => if altered then [.changed q.id] else []
    | .folder, .folder => []
    | _, _ => [.changed q.id]

def Called (kept : Prop) (e : ChangeEvent) : Option Facts → Option Facts → Prop
  | none, none => False
  | none, some t => e = .created t.id
  | some s, some t => s.differs t = true ∧ e = .changed t.id
  | some s, none => kept ∧ e = .deleted s.id

section

variable {before after : Option Snapshot} {kept : Prop} {e : ChangeEvent}

theorem verdict_iff :
    Verdict before after kept e ↔ Called kept e (before.map facts) (after.map facts) := by
  cases before with
  | none =>
    cases after with
    | none => exact Iff.rfl
    | some t => exact Iff.rfl
  | some s =>
    cases after with
    | none => exact Iff.rfl
    | some t => exact and_congr_left fun _ => (differs_iff s t).symm

theorem not_verdict_of_same (h : after.map facts = before.map facts) :
    ¬ Verdict before after kept e := by
  rw [verdict_iff, h]
  cases before.map facts with
  | none => exact id
  | some s => simp [Called, Facts.differs]

theorem node_of_verdict (h : Verdict before after kept e) :
    ∃ t, (before = some t ∨ after = some t) ∧ e.file = t.id := by
  cases before with
  | none =>
    cases after with
    | none => exact h.elim
    | some t =>
      have e_eq : e = .created t.id := h
      exact ⟨t, .inr rfl, by rw [e_eq]; rfl⟩
  | some s =>
    cases after with
    | none => exact ⟨s, .inl rfl, by rw [h.2]; rfl⟩
    | some t => exact ⟨t, .inr rfl, by rw [h.2]; rfl⟩

end

theorem Store.facts?_id {s : Store} (hs : s.Tree) {q : Path} {f : Facts} (h : s.facts? q = some f) :
    f.id = q.id ∧ q.IsNormal := by
  obtain ⟨⟨content, m⟩, hn, rfl⟩ := Option.map_eq_some_iff.1 h
  refine ⟨?_, hs.normal q _ hn⟩
  cases content with
  | file bytes => rfl
  | folder => rfl

theorem time_inj {m m' : Nat} (h : Time.ofMillis m = Time.ofMillis m') : m = m' := by
  have nanos : ((m * 1000000 : Nat) : Int) = ((m' * 1000000 : Nat) : Int) := congrArg Time.nanos h
  omega

theorem eq_of_length_le_one {α : Type} {l l' : List α} (h : l.length ≤ 1) (h' : l'.length ≤ 1)
    (mem : ∀ a, a ∈ l ↔ a ∈ l') : l = l' := by
  match l, l', h, h' with
  | [], [], _, _ => rfl
  | [], [b], _, _ => exact absurd ((mem b).2 List.mem_cons_self) List.not_mem_nil
  | [a], [], _, _ => exact absurd ((mem a).1 List.mem_cons_self) List.not_mem_nil
  | [a], [b], _, _ => rw [List.mem_singleton.1 ((mem a).1 List.mem_cons_self)]

theorem Store.facts?_none {s : Store} {q : Path} (h : s.node? q = none) : s.facts? q = none := by
  rw [facts?, h]
  rfl

theorem differs_file {q : Path} {i : Store} (hi : i.Tree) (ops : List Op) {b b' : ByteArray}
    {m m' : Nat} (before : i.node? q = some ⟨.file b, m⟩)
    (after : (i.run ops).node? q = some ⟨.file b', m'⟩) :
    Facts.differs ⟨q.id, true, some (.ofMillis m), b.size, false⟩
      ⟨q.id, true, some (.ofMillis m'), b'.size, false⟩ = altered q ops i := by
  have same := Store.file_run ops hi before after
  have times : Time.ofMillis m = Time.ofMillis m' ↔ m' = m := by
    constructor
    · intro h
      exact (time_inj h).symm
    · intro h
      rw [h]
  rw [Bool.eq_iff_iff, same, ne_comm (a := b'.size)]
  simp [Facts.differs, times]

theorem length_due (p q : Path) (before after : Store) (altered : Bool) :
    (due p q before after altered).length ≤ 1 := by
  rw [due]
  split
  · exact Nat.zero_le 1
  · exact Nat.le_refl 1
  · split
    · exact Nat.le_refl 1
    · exact Nat.zero_le 1
  · split
    · split
      · exact Nat.le_refl 1
      · exact Nat.zero_le 1
    · exact Nat.zero_le 1
    · exact Nat.le_refl 1

theorem mem_due {p q : Path} {i : Store} (hi : i.Tree) (ops : List Op) {kept : Prop}
    (hk : kept ↔ q = p ∨ (((i.run ops).node? q.dropLast).any fun n => n.content = .folder) = true)
    {e : ChangeEvent} : e ∈ due p q i (i.run ops) (altered q ops i) ↔
      Called kept e (i.facts? q) ((i.run ops).facts? q) := by
  rw [due, Store.facts?, Store.facts?]
  cases hn : i.node? q with
  | none =>
    cases hm : (i.run ops).node? q with
    | none => exact iff_of_false List.not_mem_nil id
    | some m =>
      obtain ⟨content, time⟩ := m
      cases content with
      | file b => exact List.mem_singleton
      | folder => exact List.mem_singleton
  | some n =>
    obtain ⟨content, time⟩ := n
    cases hm : (i.run ops).node? q with
    | none =>
      dsimp only
      by_cases h : kept
      · rw [if_pos (hk.1 h), List.mem_singleton]
        cases content with
        | file b => exact (and_iff_right h).symm
        | folder => exact (and_iff_right h).symm
      · rw [if_neg (mt hk.2 h)]
        exact iff_of_false List.not_mem_nil fun called => h called.1
    | some m =>
      obtain ⟨content', time'⟩ := m
      cases content with
      | file b =>
        cases content' with
        | file b' =>
          have differs := differs_file hi ops hn hm
          simp [Called, differs]
        | folder => simp [Called, Facts.differs]
      | folder =>
        cases content' with
        | file b' => simp [Called, Facts.differs]
        | folder => simp [Called, Facts.differs]

theorem eq_due {p q : Path} {i : Store} (hi : i.Tree) (ops : List Op) {before after : Option Snapshot}
    (hb : before.map facts = i.facts? q) (ha : after.map facts = (i.run ops).facts? q) {kept : Prop}
    (hk : kept ↔ q = p ∨ (((i.run ops).node? q.dropLast).any fun n => n.content = .folder) = true)
    {l : List ChangeEvent} (length : l.length ≤ 1) (mem : ∀ e, e ∈ l ↔ Verdict before after kept e) :
    l = due p q i (i.run ops) (altered q ops i) := by
  apply eq_of_length_le_one length (length_due _ _ _ _ _)
  intro e
  rw [mem, verdict_iff, hb, ha, mem_due hi ops hk]

section

variable {out : Outside L ρ} {p : Path} {x : Watch Path} {moment : Path → World L ρ}

theorem Tells.id (h : Tells p x moment) {snapshot : Snapshot} (last : x.last = some snapshot)
    {names : List String} {t : Snapshot} (ht : at? names snapshot = some t) :
    t.id = Path.id (p ++ names) ∧ Path.IsNormal (p ++ names) := by
  obtain ⟨snapshot', last', known⟩ := h.known
  cases last.symm.trans last'
  have fact := known names
  rw [ht] at fact
  split at fact
  · exact Store.facts?_id (moment (p ++ names)).tree fact.symm
  · cases fact

theorem isFolder_iff {s : Store} {q : Path} {node : Option Snapshot}
    (h : node.map facts = s.facts? q) :
    (∃ t, node = some t ∧ t.isFolder = true) ↔
      ((s.node? q).any fun n => n.content = .folder) = true := by
  cases hn : s.node? q with
  | none =>
    rw [Store.facts?_none hn, Option.map_eq_none_iff] at h
    simp [h]
  | some n =>
    obtain ⟨content, m⟩ := n
    rw [Store.facts?, hn] at h
    obtain ⟨t, rfl, ht⟩ := Option.map_eq_some_iff.1 h
    cases content with
    | file b => simp [isFolder, ht]
    | folder => simp [isFolder, ht]

theorem kept_iff_store {found : Snapshot} {names : List String} {s : Store}
    (h : names ≠ [] →
      (at? names.dropLast found).map facts = s.facts? (p ++ names).dropLast) :
    Kept found names ↔ p ++ names = p ∨
      ((s.node? (p ++ names).dropLast).any fun n => n.content = .folder) = true := by
  rw [kept_iff, List.append_right_eq_self]
  by_cases root : names = []
  · exact iff_of_true (.inl root) (.inl root)
  · exact or_congr_right (isFolder_iff (h root))

theorem Hidden.below {s : Store} {q r : Path} (h : Hidden s p q) (hr : q <+: r) : Hidden s p r :=
  h.imp id fun hq => by
    obtain ⟨f, hf, there, hp, hne, hq⟩ := hq
    exact ⟨f, hf, there, hp, hne, hq.trans hr⟩

theorem Tells.file_iff (h : Tells p x moment) {y : Watch Path} {moment' : Path → World L ρ}
    (h' : Tells p y moment') {old new : Snapshot} (last : x.last = some old)
    (last' : y.last = some new) {names : List String} (normal : Path.IsNormal (p ++ names))
    {r : List String} {kept : Prop} {e : ChangeEvent}
    (hv : Verdict ((some old).bind (at? r)) (at? r new) kept e) :
    (e.file == Path.id (p ++ names)) = true ↔ r = names := by
  obtain ⟨t, node, file⟩ := node_of_verdict hv
  have named : t.id = Path.id (p ++ r) ∧ Path.IsNormal (p ++ r) := by
    rcases node with before | after
    · exact h.id last before
    · exact h'.id last' after
  rw [file, named.1, beq_iff_eq]
  constructor
  · intro same
    exact List.append_cancel_left (Path.id_inj named.2 normal same)
  · intro same
    rw [same]

theorem Tells.parent {w : World L ρ} (h : Tells p x (observe p moment w)) {snapshot : Snapshot}
    (last : x.last = some snapshot) (recursive : x.recursive = true) {names : List String}
    (visible : ¬ Hidden w.store p (p ++ names)) (below : names ≠ []) :
    (at? names.dropLast snapshot).map facts = w.store.facts? (p ++ names).dropLast := by
  obtain ⟨snapshot', last', known⟩ := h.known
  cases last.symm.trans last'
  have path : (p ++ names).dropLast = p ++ names.dropLast := List.dropLast_append_of_ne_nil below
  have above : ¬ Hidden w.store p (p ++ names.dropLast) := by
    intro hidden
    exact visible (hidden.below ((List.prefix_append_right_inj p).2 names.dropLast_prefix))
  have fact := known names.dropLast
  rw [if_pos (.inl recursive), observe, if_neg above] at fact
  rw [path, fact]

variable (out) in
theorem Tells.news (h : Tells p x moment) (w : World L ρ) {names : List String}
    (scope : x.recursive = true ∨ names = []) (normal : Path.IsNormal (p ++ names)) {ops : List Op}
    (since : w.journal = (moment (p ++ names)).journal ++ ops) :
    (Cycle.news x.last (visitOf out.env x w).result).filter
        (fun e => e.file == Path.id (p ++ names)) =
      if Hidden w.store p (p ++ names) then []
      else due p (p ++ names) (moment (p ++ names)).store w.store
        (altered (p ++ names) ops (moment (p ++ names)).store) := by
  have next : Tells p (polled x (visitOf out.env x w).result) (observe p moment w) :=
    h.poll out w
  obtain ⟨snapshot, last, known⟩ := h.known
  rw [Outside.visitOf_eq h.file] at next ⊢
  by_cases hf : p ∈ w.store.failing
  · rw [visit_failing hf, if_pos (.inl hf)]
    rfl
  obtain ⟨found, hr, _⟩ := visit_shows w.tree x.recursive (deepEnough_height w.store p) hf x.last
  rw [hr] at next ⊢
  obtain ⟨_, e, shows⟩ := next.known
  cases e
  have before := known names
  have after := shows names
  have scope' : (polled x (.ok found)).recursive = true ∨ names = [] := scope
  rw [if_pos scope] at before
  rw [if_pos scope'] at after
  obtain ⟨length, mem⟩ := filter_diff fun r e => h.file_iff next last rfl normal (r := r) (e := e)
  have changes : Cycle.news x.last (.ok found) = diff (some snapshot) found := by
    rw [last]
    rfl
  rw [changes]
  by_cases hidden : Hidden w.store p (p ++ names)
  · rw [if_pos hidden]
    rw [observe, if_pos hidden] at after
    apply List.eq_nil_iff_forall_not_mem.2
    intro e he
    exact not_verdict_of_same (after.trans before.symm) ((mem e).1 he)
  · rw [if_neg hidden]
    rw [observe, if_neg hidden] at after
    have kept := kept_iff_store fun below =>
      next.parent rfl (scope'.resolve_right below) hidden below
    rw [World.store_of_journal since] at after kept ⊢
    exact eq_due (moment (p ++ names)).tree ops before after kept length mem

end

def Continues (id : FileId) (s t : World L ρ) : Prop :=
  Undisturbed World.onWatcher id s t ∧ s.journal <+: t.journal

/-- The watch was put in with a capture made when nothing failed at the path or below it. -/
structure Baseline (p : Path) (x : Watch Path) (b : World L ρ) : Prop where
  file : x.file = p
  clear : ∀ f ∈ b.store.failing, ¬ p <+: f
  captured : ∃ snapshot, x.last = some snapshot ∧
    (Capture.visit (queries World.store) x.recursive (b.store.height + 1) p none b).result =
      .ok snapshot

theorem Baseline.tells {p : Path} {x : Watch Path} {b : World L ρ} (h : Baseline p x b) :
    Tells p x fun _ => b := by
  obtain ⟨snapshot, last, captured⟩ := h.captured
  have ok : p ∉ b.store.failing := fun hf => h.clear p hf List.prefix_rfl
  obtain ⟨found, hr, shows⟩ := visit_shows b.tree x.recursive (deepEnough_height b.store p) ok none
  cases hr.symm.trans captured
  refine ⟨h.file, snapshot, last, ?_⟩
  intro names
  have clear : ¬ Hidden b.store p (p ++ names) := by
    intro hidden
    rcases hidden with hf | ⟨r, hf, _, hp, _⟩
    · exact ok hf
    · exact h.clear r hf hp
  rw [shows, seen, if_neg clear]

section

variable {out : Outside L ρ} {p : Path}

def turnOf (out : Outside L ρ) (p : Path) (r : Round (World L ρ)) : World L ρ :=
  turn out.env World.onWatcher p.id r.order r.start

def observed (out : Outside L ρ) (p : Path) (moment : Path → World L ρ)
    (rounds : List (Round (World L ρ))) : Path → World L ρ :=
  rounds.foldl (fun m r => observe p m (turnOf out p r)) moment

theorem polled_recursive (x : Watch Path) (result : Except FsError Snapshot) :
    (polled x result).recursive = x.recursive := by
  cases result <;> rfl

theorem Tells.rounds (respects : out.Respects p.id) {s u : World L ρ}
    {rounds : List (Round (World L ρ))}
    (history : History out.env World.onWatcher (Continues p.id) s rounds u)
    {x : Watch Path} (hx : s.watcher.watch? p.id = some x) (hc : s.watcher.closed = false)
    {moment : Path → World L ρ} (tells : Tells p x moment)
    (since : ∀ q, (moment q).journal <+: s.journal) {done later : List (Round (World L ρ))}
    {r : Round (World L ρ)} (split : rounds = done ++ r :: later) :
    ∃ y result, RoundOf out.env World.onWatcher p.id y r result ∧
      y.recursive = x.recursive ∧ Tells p y (observed out p moment done) ∧
      ∀ q, (observed out p moment done q).journal <+: (turnOf out p r).journal := by
  induction history generalizing x moment done with
  | rest => simp at split
  | @round s t u order rounds quiet nodup all next ih =>
    obtain ⟨⟨same, open'⟩, later'⟩ := quiet
    obtain ⟨⟨result, now⟩, closed⟩ := respects.aloof.roundOf (r := ⟨t, order⟩) nodup all
      (same.trans hx) (open'.trans hc)
    obtain ⟨before, after⟩ := respects.journal_turn order t
    cases done with
    | nil =>
      obtain ⟨rfl, _⟩ := List.cons.inj split
      refine ⟨x, result, now, rfl, tells, ?_⟩
      intro q
      exact (since q).trans (later'.trans before)
    | cons first done =>
      obtain ⟨rfl, rest⟩ := List.cons.inj split
      have told := tells.poll out (turnOf out p ⟨t, order⟩)
      have captured : result = (visitOf out.env x
        (turnOf out p ⟨t, order⟩)).result := now.captured
      rw [← captured] at told
      have since' : ∀ q, (observe p moment (turnOf out p ⟨t, order⟩) q).journal <+:
          (runInOrder out.env World.onWatcher order t).2.journal := by
        intro q
        rw [observe]
        split
        · exact (since q).trans (later'.trans (before.trans after))
        · exact after
      obtain ⟨y, result', round, recursive, tells'⟩ := ih now.after closed told since' rest
      exact ⟨y, result', round, recursive.trans (polled_recursive x result), tells'⟩

end

def written : World Unit Unit := ⟨[.write "/d/f" ⟨#[1]⟩], .new ⟨0⟩ 0 ⟨1⟩ 1, ()⟩

def watching : World Unit Unit :=
  let v := Capture.visit (queries World.store) true (written.store.height + 1) ["d"] none written
  let w := (written.watcher.insert (Path.id ["d"]) ["d"] true v.result.toOption).2
  { written with watcher := (w.bind (Path.id ["d"]) ()).2 }

end PathWatch.Memory
