import PathWatch.Proofs.Diagnostics.Receiver

/-! Receivers of reports do not get in each other's way: each is as if it were alone
with the reports, its own reader and the closes. -/
namespace PathWatch

namespace Diagnostics

inductive Op
  | subscribe
  | emit (x : Diagnostic)
  | receive (i : Nat)
  | drop (i : Nat)
  | close
deriving DecidableEq

namespace Op

def apply : Op → Diagnostics → Diagnostics
  | subscribe, d => d.subscribe.2
  | emit x, d => d.emit x
  | receive i, d => (d.receive i).2
  | drop i, d => d.drop i
  | close, d => d.close

def answer? (i : Nat) : Op → Diagnostics → Option Received
  | receive j, d => if j = i then some (d.receive j).1 else none
  | _, _ => none

def move? (i : Nat) : Op → Option Receiver.Move
  | subscribe => none
  | emit x => some (.offered x)
  | receive j => if j = i then some .asked else none
  | drop j => if j = i then some .abandoned else none
  | close => some .cut

end Op

def run (ops : List Op) (d : Diagnostics) : Diagnostics := ops.foldl (fun d op => op.apply d) d

def queue (i : Nat) (d : Diagnostics) : List Diagnostic := (d.receivers.getD i {}).queue

def answers (i : Nat) : List Op → Diagnostics → List Received
  | [], _ => []
  | op :: ops, d => (op.answer? i d).toList ++ answers i ops (op.apply d)

/-- The reports emitted until the next close when the receiver holds fewer than `room`. -/
def admitted (room i : Nat) : List Op → Diagnostics → List Diagnostic
  | [], _ => []
  | .close :: _, _ => []
  | .emit x :: ops, d =>
    (if (d.queue i).length < room then [x] else []) ++ admitted room i ops (d.emit x)
  | op :: ops, d => admitted room i ops (op.apply d)

/-- The subscriptions, each with the number of its receiver and all that comes after it. -/
def subscriptions : (next : Nat) → List Op → List (Nat × List Op)
  | _, [] => []
  | next, .subscribe :: ops => (next, ops) :: subscriptions (next + 1) ops
  | next, _ :: ops => subscriptions next ops

def moves (i : Nat) (ops : List Op) : List Receiver.Move := ops.filterMap (Op.move? i)

variable {d : Diagnostics} {i : Nat}

theorem capacity_apply (op : Op) (d : Diagnostics) : (op.apply d).capacity = d.capacity := by
  cases op with
  | receive j =>
    rw [Op.apply, receive]
    split <;> rfl
  | _ => rfl

theorem receivers_receive (j : Nat) (d : Diagnostics) :
    (d.receive j).2.receivers = d.receivers.modify j fun r => r.take.2 := by
  apply List.ext_getElem?
  intro i
  rw [receive]
  cases hr : d.receivers[j]? with
  | none =>
    have outside : d.receivers.length ≤ j := List.getElem?_eq_none_iff.1 hr
    rw [List.modify_eq_self outside]
  | some r =>
    by_cases same : j = i
    · subst same
      simp [onReceiver, hr]
    · simp [onReceiver, same]

theorem receivers_apply {op : Op} (h : op ≠ .subscribe) (d : Diagnostics) : (op.apply d).receivers =
    d.receivers.mapIdx fun i r => r.moved d.capacity (op.move? i).toList := by
  apply List.ext_getElem?
  intro i
  rw [List.getElem?_mapIdx]
  cases op with
  | subscribe => exact absurd rfl h
  | emit x => simp [Op.apply, emit, Op.move?, Receiver.moved, Receiver.Move.apply]
  | receive j =>
    rw [Op.apply, receivers_receive, List.getElem?_modify]
    by_cases same : j = i <;> simp [Op.move?, same, Receiver.moved, Receiver.Move.apply]
  | drop j =>
    rw [Op.apply, drop, onReceiver, List.getElem?_modify]
    by_cases same : j = i <;> simp [Op.move?, same, Receiver.moved, Receiver.Move.apply]
  | close => simp [Op.apply, close, Op.move?, Receiver.moved, Receiver.Move.apply]

theorem moves_cons (i : Nat) (op : Op) (ops : List Op) :
    moves i (op :: ops) = (op.move? i).toList ++ moves i ops := by
  rw [moves, List.filterMap_cons]
  cases op.move? i <;> rfl

theorem receivers_run (ops : List Op) (d : Diagnostics) : (d.run ops).receivers =
    (d.receivers.mapIdx fun i r => r.moved d.capacity (moves i ops)) ++
      (subscriptions d.receivers.length ops).map fun s =>
        Receiver.moved d.capacity (moves s.1 s.2) {} := by
  induction ops generalizing d with
  | nil =>
    apply List.ext_getElem?
    intro i
    simp [run, subscriptions, moves, Receiver.moved]
  | cons op ops ih =>
    rw [run, List.foldl_cons, ← run, ih, capacity_apply]
    by_cases h : op = .subscribe
    · subst h
      have opened : (Op.subscribe.apply d).receivers = d.receivers ++ [({} : Receiver)] := rfl
      rw [opened, List.mapIdx_append, List.length_append, List.append_assoc, subscriptions]
      simp only [moves_cons, Op.move?, List.mapIdx_cons, List.mapIdx_nil, Nat.zero_add]
      rfl
    · have length : subscriptions d.receivers.length (op :: ops) =
          subscriptions d.receivers.length ops := by
        cases op with
        | subscribe => exact absurd rfl h
        | _ => rfl
      rw [receivers_apply h, List.mapIdx_mapIdx, List.length_mapIdx, length]
      simp only [moves_cons, Receiver.moved_append]
      rfl

theorem length_run (capacity : Nat) (ops : List Op) :
    ∀ r ∈ ((ofCapacity capacity).run ops).receivers, r.queue.length ≤ max capacity 1 := by
  have born : (ofCapacity capacity).receivers = [] := rfl
  intro r hr
  rw [receivers_run, born, List.mapIdx_nil, List.nil_append] at hr
  obtain ⟨s, _, rfl⟩ := List.mem_map.1 hr
  exact Receiver.length_moved (Nat.zero_le _)

theorem capacity_run (ops : List Op) (d : Diagnostics) : (d.run ops).capacity = d.capacity := by
  induction ops generalizing d with
  | nil => rfl
  | cons op ops ih => exact (ih (op.apply d)).trans (capacity_apply op d)

section

variable {r : Receiver} (hr : d.receivers[i]? = some r)
include hr

theorem receiver_run (ops : List Op) :
    (d.run ops).receivers[i]? = some (r.moved d.capacity (moves i ops)) := by
  obtain ⟨inside, _⟩ := List.getElem?_eq_some_iff.1 hr
  rw [receivers_run, List.getElem?_append_left (by simpa using inside), List.getElem?_mapIdx, hr]
  rfl

theorem receiver_apply (op : Op) :
    (op.apply d).receivers[i]? = some (r.moved d.capacity (op.move? i).toList) := by
  have step := receiver_run hr [op]
  rwa [moves_cons, moves, List.filterMap_nil, List.append_nil] at step

theorem queue_eq : d.queue i = r.queue := by
  rw [queue, List.getD_eq_getElem?_getD, hr]
  rfl

theorem queue_run (ops : List Op) :
    (d.run ops).queue i = (r.moved d.capacity (moves i ops)).queue :=
  queue_eq (receiver_run hr ops)

theorem answer?_eq (op : Op) :
    (op.answer? i d).toList = r.answers d.capacity (op.move? i).toList := by
  cases op with
  | receive j =>
    by_cases same : j = i
    · subst same
      simp [Op.answer?, Op.move?, Receiver.answers, Receiver.Move.answer?, receive, hr]
    · simp [Op.answer?, Op.move?, same, Receiver.answers]
  | drop j =>
    by_cases same : j = i <;>
      simp [Op.answer?, Op.move?, same, Receiver.answers, Receiver.Move.answer?]
  | _ => rfl

end

theorem answers_eq {r : Receiver} (hr : d.receivers[i]? = some r) (ops : List Op) :
    d.answers i ops = r.answers d.capacity (moves i ops) := by
  induction ops generalizing d r with
  | nil => rfl
  | cons op ops ih =>
    rw [answers, answer?_eq hr, ih (receiver_apply hr op), capacity_apply, moves_cons,
      Receiver.answers_append]

theorem admitted_eq {r : Receiver} (hr : d.receivers[i]? = some r) (ops : List Op) :
    d.admitted d.capacity i ops = r.admitted d.capacity (moves i ops) := by
  induction ops generalizing d r with
  | nil => rfl
  | cons op ops ih =>
    have rest := ih (receiver_apply hr op)
    rw [capacity_apply] at rest
    cases op with
    | subscribe => exact rest
    | emit x =>
      rw [admitted, queue_eq hr]
      exact congrArg _ rest
    | receive j | drop j =>
      refine rest.trans ?_
      rw [moves_cons]
      by_cases same : j = i
      · simp only [Op.move?, if_pos same]
        rfl
      · simp only [Op.move?, if_neg same]
        rfl
    | close => rfl

theorem mem_moves {m : Receiver.Move} {ops : List Op} :
    m ∈ moves i ops ↔ ∃ op ∈ ops, op.move? i = some m := List.mem_filterMap

theorem cut_mem_moves {ops : List Op} : .cut ∈ moves i ops ↔ .close ∈ ops := by
  rw [mem_moves]
  constructor
  · intro h
    obtain ⟨op, hop, cut⟩ := h
    cases op with
    | close => exact hop
    | _ => simp [Op.move?] at cut
  · intro h
    exact ⟨.close, h, rfl⟩

theorem abandoned_mem_moves {ops : List Op} : .abandoned ∈ moves i ops ↔ .drop i ∈ ops := by
  rw [mem_moves]
  constructor
  · intro h
    obtain ⟨op, hop, abandoned⟩ := h
    cases op with
    | drop j =>
      by_cases same : j = i
      · exact same ▸ hop
      · simp [Op.move?, same] at abandoned
    | _ => simp [Op.move?] at abandoned
  · intro h
    exact ⟨.drop i, h, if_pos rfl⟩

theorem count_asked (ops : List Op) : (moves i ops).count .asked = ops.count (.receive i) := by
  induction ops with
  | nil => rfl
  | cons op ops ih =>
    rw [moves_cons, List.count_append, ih, List.count_cons, Nat.add_comm]
    congr 1
    cases op with
    | receive j | drop j => by_cases same : j = i <;> simp [Op.move?, same]
    | _ => rfl

theorem subscriberCount_emit (capacity : Nat) (ops : List Op) (x : Diagnostic) :
    (((ofCapacity capacity).run ops).emit x).subscriberCount =
      (subscriptions 0 ops).countP fun s => .close ∉ s.2 ∧ .drop s.1 ∉ s.2 := by
  have all := receivers_run ops (ofCapacity capacity)
  have born : (ofCapacity capacity).receivers = [] := rfl
  rw [born, List.mapIdx_nil, List.nil_append, List.length_nil] at all
  rw [subscriberCount, emit, all, List.map_map, List.countP_map]
  apply List.countP_congr
  intro s _
  simp only [Function.comp_apply, Receiver.connected_offer, Receiver.attended_moved, cut_mem_moves,
    abandoned_mem_moves]
  rfl

/-- A receiver that was subscribed after `before` gets, until it is dropped, the reports that are
emitted up to the next close and find room in its queue, and no other receiver makes a difference to
that. From a close on it gives what it holds and then says that it is cut off. -/
theorem receivers_apart (c : Nat) (before later : List Op) :
    let d := (ofCapacity c).run before
    let i := d.subscribe.1
    let s := d.subscribe.2
    (∀ r ∈ d.receivers, r.queue.length ≤ max c 1) ∧
    (∀ x, (d.emit x).subscriberCount =
      (subscriptions 0 before).countP fun s => .close ∉ s.2 ∧ .drop s.1 ∉ s.2) ∧
    (∀ before' later', moves ((ofCapacity c).run before').subscribe.1 later' = moves i later →
      let d' := (ofCapacity c).run before'
      d'.subscribe.2.answers d'.subscribe.1 later' = s.answers i later ∧
        (d'.subscribe.2.run later').queue d'.subscribe.1 = (s.run later).queue i) ∧
    (.drop i ∉ later →
      (s.answers i later).filterMap Received.report? ++ (s.run later).queue i =
          s.admitted (max c 1) i later ∧
      (.close ∉ later → .disconnected ∉ s.answers i later) ∧
      ∀ open' rest, later = open' ++ .close :: rest →
        let t := s.run (open' ++ [.close])
        let n := rest.count (.receive i)
        t.answers i rest = ((t.queue i).take n).map .report ++
          List.replicate (n - (t.queue i).length) .disconnected) := by
  intro d i s
  have fresh (ops : List Op) : let d := (ofCapacity c).run ops
      d.subscribe.2.receivers[d.subscribe.1]? = some {} ∧ d.subscribe.2.capacity = max c 1 :=
    ⟨List.getElem?_concat_length, capacity_run ops (ofCapacity c)⟩
  obtain ⟨mine, room⟩ := fresh before
  refine ⟨length_run c before, subscriberCount_emit c before, ?_, ?_⟩
  · intro before' later' same d'
    obtain ⟨other, room'⟩ := fresh before'
    rw [answers_eq other, answers_eq mine, queue_run other, queue_run mine, room, room', same]
    exact ⟨rfl, rfl⟩
  · intro kept
    have kept' : .abandoned ∉ moves i later := mt abandoned_mem_moves.1 kept
    refine ⟨?_, ?_, ?_⟩
    · rw [← room, admitted_eq mine, answers_eq mine, queue_run mine]
      exact Receiver.taken_append_queue rfl kept'
    · intro uncut
      rw [answers_eq mine]
      exact Receiver.not_disconnected rfl rfl kept' (mt cut_mem_moves.1 uncut)
    · intro open' rest split t n
      have closed := receiver_run mine (open' ++ [.close])
      have unconnected : (Receiver.moved s.capacity (moves i (open' ++ [.close])) {}).connected =
          false := by
        rw [moves, List.filterMap_append, Receiver.moved_append]
        rfl
      have kept'' : .abandoned ∉ moves i rest := by
        rw [abandoned_mem_moves]
        intro h
        exact kept (by rw [split]; exact List.mem_append_right _ (List.mem_cons_of_mem _ h))
      rw [answers_eq closed, Receiver.answers_of_cut unconnected kept'', count_asked,
        queue_eq closed]

theorem served_beside_full_receiver :
    let a : Diagnostic := .captureFailed ⟨"a"⟩ "gone"
    let b : Diagnostic := .captureFailed ⟨"b"⟩ "gone"
    let s := ((ofCapacity 0).run [.subscribe]).subscribe.2
    let rest : List Op := [.receive 1, .receive 1]
    let later : List Op := [.emit a, .receive 1, .emit b] ++ .close :: rest
    .drop 1 ∉ later ∧ (s.run later).queue 0 = [a] ∧
      (s.answers 1 later).filterMap Received.report? ++ (s.run later).queue 1 = [a, b] ∧
      (s.run [.emit a, .receive 1, .emit b, .close]).answers 1 rest =
        [.report b, .disconnected] := by
  intro a b s rest later
  have kept : .drop 1 ∉ later := by decide
  obtain ⟨_, _, _, served⟩ := receivers_apart 0 [.subscribe] later
  obtain ⟨all, _, closed⟩ := served kept
  exact ⟨kept, rfl, all, closed [.emit a, .receive 1, .emit b] rest rfl⟩

end Diagnostics

end PathWatch
