import PathWatch.Monitor
import PathWatch.Proofs.Cycle.Aloof

/-! A path that stays watched has its changes reported once each: the events
that its listeners hear are those between neighbouring snapshots, whatever else
is watched and whatever goes wrong on the way. -/
namespace PathWatch.Cycle

variable {H L σ : Type} {env : Surroundings H L σ} {here : Focus σ (Watcher H L)} {id : FileId}

def along : List Snapshot → List ChangeEvent
  | a :: b :: rest => Snapshot.diff (some a) b ++ along (b :: rest)
  | _ => []

structure Round (σ : Type) where
  start : σ
  order : List FileId

variable (env here) in
def Round.acts (r : Round σ) : List (Act H L) := roundActs env here r.order r.start

variable (env here) in
def Round.after (r : Round σ) : σ := (runInOrder env here r.order r.start).2

variable (here id) in
def Undisturbed (s t : σ) : Prop :=
  (here.get t).watch? id = (here.get s).watch? id ∧ (here.get t).closed = (here.get s).closed

variable (env here) in
inductive History (between : σ → σ → Prop) : σ → List (Round σ) → σ → Prop
  | rest {s t : σ} (quiet : between s t) : History between s [] t
  | round {s t u : σ} {order : List FileId} {rounds : List (Round σ)}
      (quiet : between s t) (nodup : order.Nodup)
      (all : ∀ j, j ∈ order ↔ (here.get t).isWatching j = true)
      (later : History between (runInOrder env here order t).2 rounds u) :
      History between s (⟨t, order⟩ :: rounds) u

theorem History.run {between : σ → σ → Prop} {s t u : σ} {rounds : List (Round σ)}
    (quiet : between s t) (ordered : Keyed.Ordered (here.get t).watches)
    (later : History env here between (run env here t).2 rounds u) :
    History env here between s (⟨t, Keyed.keys (here.get t).watches⟩ :: rounds) u :=
  .round quiet ordered.nodup_keys (fun _ => Watcher.mem_keys_iff_isWatching) later

def heard (id : FileId) (number : Nat) (acts : List (Act H L)) : List ChangeEvent :=
  ((callsAt id acts).filter fun c => c.1.number == number).map Prod.snd

variable (env here id) in
def snapshotsOf (rounds : List (Round σ)) : List Snapshot :=
  rounds.flatMap fun r => snapshotsAt id (r.acts env here)

theorem along_cons (last : Option Snapshot) (snapshot : Snapshot) (rest : List Snapshot) :
    along (last.toList ++ snapshot :: rest) = changes last snapshot ++ along (snapshot :: rest) := by
  cases last <;> rfl

theorem along_polled (x : Watch H) (result : Except FsError Snapshot) (rest : List Snapshot) :
    along (x.last.toList ++ (result.toOption.toList ++ rest)) =
      news x.last result ++ along ((polled x result).last.toList ++ rest) := by
  cases result with
  | error e => rfl
  | ok snapshot => exact along_cons x.last snapshot rest

def caughtUp (x : Watch H) (snapshots : List Snapshot) : Watch H :=
  { x with last := (x.last.toList ++ snapshots).getLast? }

theorem caughtUp_nil (x : Watch H) : caughtUp x [] = x := by
  obtain ⟨file, recursive, last, serial⟩ := x
  cases last <;> rfl

theorem caughtUp_polled (x : Watch H) (result : Except FsError Snapshot) (rest : List Snapshot) :
    caughtUp (polled x result) rest = caughtUp x (result.toOption.toList ++ rest) := by
  cases result with
  | error e => rfl
  | ok snapshot =>
    have last : (x.last.toList ++ ([snapshot] ++ rest)).getLast? =
        ([snapshot] ++ rest).getLast? := by
      simp [List.getLast?_append, List.getLast?_cons]
    exact (congrArg (fun l => { x with last := l }) last).symm

variable (here id) in
def Bound (b : Binding L) (s : σ) : Prop :=
  ((here.get s).bindings.of id).filter (fun c => c.number == b.number) = [b]

variable (env here id) in
/-- In the round the path with the watch `x` is captured with the outcome `result`. Its listeners
are all called with an event, in the order of their bindings, before the next event's turn. -/
structure RoundOf (x : Watch H) (r : Round σ) (result : Except FsError Snapshot) : Prop where
  before : (here.get r.start).watch? id = some x
  captures : capturesAt id (r.acts env here) = [result]
  captured : result = (visitOf env x (turn env here id r.order r.start)).result
  calls : callsAt id (r.acts env here) = (news x.last result).flatMap fun e =>
    ((here.get r.start).bindings.of id).map fun b => (b, e)
  after : (here.get (r.after env here)).watch? id = some (polled x result)
  failed : ∀ e, result = .error e → callsAt id (r.acts env here) = [] ∧
    (here.get (r.after env here)).watch? id = some x

theorem RoundOf.snapshots {x : Watch H} {r : Round σ} {result : Except FsError Snapshot}
    (h : RoundOf env here id x r result) :
    snapshotsAt id (r.acts env here) = result.toOption.toList := by
  rw [snapshotsAt, h.captures]
  cases result <;> rfl

theorem RoundOf.heard {x : Watch H} {r : Round σ} {result : Except FsError Snapshot}
    (h : RoundOf env here id x r result) {b : Binding L} (hb : Bound here id b r.start) :
    heard id b.number (r.acts env here) = news x.last result := by
  have once (e : ChangeEvent) :
      ((((here.get r.start).bindings.of id).map fun c => (c, e)).filter
        fun c => c.1.number == b.number).map Prod.snd = [e] := by
    have hb' : ((here.get r.start).bindings.of id).filter
      ((fun c : Binding L × ChangeEvent => c.1.number == b.number) ∘ fun c => (c, e)) = [b] := hb
    rw [List.filter_map, hb']
    rfl
  rw [Cycle.heard, h.calls]
  induction news x.last result with
  | nil => rfl
  | cons e es ih =>
    rw [List.flatMap_cons, List.filter_append, List.map_append, once, ih]
    rfl

theorem Aloof.roundOf (ha : Aloof env here id) {r : Round σ} (nodup : r.order.Nodup)
    (all : ∀ j, j ∈ r.order ↔ (here.get r.start).isWatching j = true) {x : Watch H}
    (hx : (here.get r.start).watch? id = some x) (hc : (here.get r.start).closed = false) :
    (∃ result, RoundOf env here id x r result) ∧ (here.get (r.after env here)).closed = false := by
  have mem : id ∈ r.order := (all id).2 (by rw [Watcher.isWatching, hx]; rfl)
  obtain ⟨captures, calls, own⟩ := ha.round nodup mem hx hc
  rw [replay_roundActs] at own
  have after : (here.get (r.after env here)).watch? id = some (polled x _) :=
    congrArg Prod.fst own
  have closed : (here.get (r.after env here)).closed = (here.get r.start).closed :=
    congrArg (·.2.2) own
  refine ⟨⟨_, hx, captures, rfl, calls, after, ?_⟩, closed.trans hc⟩
  intro e he
  rw [he] at calls after
  exact ⟨calls, after⟩

variable (env here id) in
theorem snapshotsOf_cons (r : Round σ) (rounds : List (Round σ)) :
    snapshotsOf env here id (r :: rounds) =
      snapshotsAt id (r.acts env here) ++ snapshotsOf env here id rounds :=
  List.flatMap_cons

variable (env here id) in
inductive Course : Watch H → List (Round σ) → Prop
  | rest {x : Watch H} : Course x []
  | round {x : Watch H} {r : Round σ} {result : Except FsError Snapshot} {rounds : List (Round σ)}
      (now : RoundOf env here id x r result) (later : Course (polled x result) rounds) :
      Course x (r :: rounds)

theorem Aloof.course (ha : Aloof env here id) {s u : σ} {rounds : List (Round σ)}
    (history : History env here (Undisturbed here id) s rounds u) {x : Watch H}
    (hx : (here.get s).watch? id = some x) (hc : (here.get s).closed = false) :
    Course env here id x rounds ∧
      (here.get u).watch? id = some (caughtUp x (snapshotsOf env here id rounds)) := by
  induction history generalizing x with
  | rest quiet =>
    refine ⟨.rest, ?_⟩
    rw [quiet.1, hx]
    exact congrArg some (caughtUp_nil x).symm
  | @round s t u order rounds quiet nodup all later ih =>
    obtain ⟨⟨result, now⟩, closed⟩ := ha.roundOf (r := ⟨t, order⟩) nodup all
      (quiet.1.trans hx) (quiet.2.trans hc)
    obtain ⟨course, last⟩ := ih now.after closed
    refine ⟨.round now course, ?_⟩
    rw [last, snapshotsOf_cons, now.snapshots, caughtUp_polled]

theorem Course.each {x : Watch H} {done later : List (Round σ)} {r : Round σ}
    (course : Course env here id x (done ++ r :: later)) :
    (∃ result, RoundOf env here id (caughtUp x (snapshotsOf env here id done)) r result) ∧
      (here.get (r.after env here)).watch? id =
        some (caughtUp x (snapshotsOf env here id (done ++ [r]))) := by
  induction done generalizing x with
  | nil =>
    cases course with
    | @round _ _ result _ now _ =>
      refine ⟨⟨result, ?_⟩, ?_⟩
      · exact (caughtUp_nil x).symm ▸ now
      · rw [List.nil_append, snapshotsOf_cons, now.snapshots, now.after, ← caughtUp_polled]
        exact congrArg some (caughtUp_nil _).symm
  | cons first done ih =>
    cases course with
    | @round _ _ result _ now later =>
      have rest := ih later
      rw [caughtUp_polled, caughtUp_polled, ← now.snapshots, ← snapshotsOf_cons,
        ← snapshotsOf_cons] at rest
      exact rest

theorem Course.heard {x : Watch H} {rounds : List (Round σ)} (course : Course env here id x rounds)
    {b : Binding L} (hb : ∀ r ∈ rounds, Bound here id b r.start) :
    rounds.flatMap (fun r => heard id b.number (r.acts env here)) =
      along (x.last.toList ++ snapshotsOf env here id rounds) := by
  induction course with
  | @rest x => cases x.last <;> rfl
  | round now _ ih =>
    have hr := hb _ List.mem_cons_self
    have rest := ih fun r hr => hb r (List.mem_cons_of_mem _ hr)
    rw [List.flatMap_cons, now.heard hr, rest, snapshotsOf_cons, now.snapshots, along_polled]

end PathWatch.Cycle
