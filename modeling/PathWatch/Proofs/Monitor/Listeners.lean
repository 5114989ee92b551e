import PathWatch.Proofs.Bindings
import PathWatch.Proofs.Monitor.Step

/-! The watches of a monitor and the bindings of their paths stay in step. What
was done to the monitor so far tells which listeners a watched path has: the one
that all paths get, and those added to it since and not taken away. -/
namespace PathWatch.Monitor

variable {H L : Type}

def Deed.bound? (id : FileId) : Deed H L → Option (Binding L)
  | .bound j binding => if j = id then some binding else none
  | _ => none

def Deed.unbinds (id : FileId) (number : Nat) : Deed H L → Bool
  | .unbound j n => j = id && n = number
  | _ => false

def Deed.Turns (id : FileId) : Deed H L → Prop
  | .added j _ => j = id
  | .removed j => j = id
  | .closed => True
  | _ => False

structure Deed.Apart (id : FileId) (d : Deed H L) : Prop where
  bound : d.bound? id = none
  unbinds : ∀ number, d.unbinds id number = false
  steady : ¬ d.Turns id

def extras (id : FileId) (since : List (Deed H L)) : List (Binding L) :=
  (since.filterMap (Deed.bound? id)).filter fun b => !since.any (Deed.unbinds id b.number)

def Proper (past : List (Deed H L)) : Prop :=
  ∀ before id number after, past = before ++ .unbound id number :: after →
    ∃ j listener, .bound j ⟨number, listener⟩ ∈ before

section

variable {id j : FileId}

@[simp] theorem apart_added {w : Watch H} : (.added j w : Deed H L).Apart id ↔ j ≠ id :=
  ⟨fun h => h.steady, fun other => ⟨rfl, fun _ => rfl, other⟩⟩

@[simp] theorem apart_removed : (.removed j : Deed H L).Apart id ↔ j ≠ id :=
  ⟨fun h => h.steady, fun other => ⟨rfl, fun _ => rfl, other⟩⟩

@[simp] theorem apart_bound {b : Binding L} : (.bound j b : Deed H L).Apart id ↔ j ≠ id := by
  constructor
  · intro h
    simpa [Deed.bound?] using h.bound
  · intro other
    exact ⟨if_neg other, fun _ => rfl, fun turns => turns⟩

@[simp] theorem apart_unbound {number : Nat} :
    (.unbound j number : Deed H L).Apart id ↔ j ≠ id := by
  constructor
  · intro h
    simpa [Deed.unbinds] using h.unbinds number
  · intro other
    exact ⟨rfl, fun n => by simp [Deed.unbinds, other], fun turns => turns⟩

@[simp] theorem apart_taken {i : Nat} {reports : List Diagnostic} :
    (.taken i reports : Deed H L).Apart id :=
  ⟨rfl, fun _ => rfl, fun turns => turns⟩

@[simp] theorem apart_dropped {i : Nat} : (.dropped i : Deed H L).Apart id :=
  ⟨rfl, fun _ => rfl, fun turns => turns⟩

end

section

variable {id : FileId} {since : List (Deed H L)}

theorem extras_snoc (id : FileId) (since : List (Deed H L)) (d : Deed H L) :
    extras id (since ++ [d]) =
      (extras id since).filter (fun b => !d.unbinds id b.number) ++
        (d.bound? id).toList.filter fun b => !since.any (Deed.unbinds id b.number) := by
  have last : [d].filterMap (Deed.bound? id) = (d.bound? id).toList := by
    cases h : d.bound? id <;> simp [h]
  have fresh : (d.bound? id).toList.filter
      (fun b => !(since ++ [d]).any (Deed.unbinds id b.number)) =
        (d.bound? id).toList.filter fun b => !since.any (Deed.unbinds id b.number) := by
    cases d with
    | bound j b => simp [Deed.unbinds]
    | _ => rfl
  rw [extras, List.filterMap_append, List.filter_append, last, fresh, extras, List.filter_filter]
  congr 1
  apply List.filter_congr
  intro b _
  simp [Bool.and_comm]

theorem extras_apart {deeds : List (Deed H L)} (h : ∀ d ∈ deeds, d.Apart id) :
    extras id (since ++ deeds) = extras id since := by
  induction deeds generalizing since with
  | nil => rw [List.append_nil]
  | cons d deeds ih =>
    obtain ⟨none, keeps, _⟩ := h d List.mem_cons_self
    have first : extras id (since ++ [d]) = extras id since := by
      rw [extras_snoc, none]
      simp [keeps]
    rw [List.append_cons, ih fun c hc => h c (List.mem_cons_of_mem d hc), first]

theorem extras_bound {b : Binding L} (fresh : ∀ j, .unbound j b.number ∉ since) :
    extras id (since ++ [.bound id b]) = extras id since ++ [b] := by
  have kept : since.any (Deed.unbinds id b.number) = false := by
    rw [List.any_eq_false]
    intro d hd unbinds
    cases d with
    | unbound j n =>
      obtain ⟨rfl, rfl⟩ : j = id ∧ n = b.number := by simpa [Deed.unbinds] using unbinds
      exact fresh j hd
    | _ => cases unbinds
  rw [extras_snoc]
  simp [Deed.unbinds, Deed.bound?, kept]

theorem extras_unbound (id : FileId) (since : List (Deed H L)) (number : Nat) :
    extras id (since ++ [.unbound id number]) =
      (extras id since).filter fun b => b.number != number := by
  rw [extras_snoc]
  simp [Deed.unbinds, Deed.bound?, bne, eq_comm, beq_eq_decide]

end

theorem Proper.before {past later : List (Deed H L)} (h : Proper (past ++ later)) : Proper past := by
  intro before id number after split
  apply h before id number (after ++ later)
  rw [split, List.append_assoc]
  rfl

theorem Proper.snoc {past : List (Deed H L)} (h : Proper past) {d : Deed H L}
    (known : ∀ id number, d = .unbound id number → ∃ j l, .bound j ⟨number, l⟩ ∈ past) :
    Proper (past ++ [d]) := by
  intro before id number after split
  rcases List.eq_nil_or_concat after with rfl | ⟨rest, last, rfl⟩
  · obtain ⟨rfl, same⟩ := List.append_inj' split rfl
    exact known id number (List.singleton_inj.1 same)
  · rw [List.concat_eq_append, ← List.cons_append, ← List.append_assoc] at split
    obtain ⟨rfl, _⟩ := List.append_inj' split rfl
    exact h before id number rest rfl

/-- The watch is as it was put in place, and the listeners of its path are first the monitor's own,
which cannot be taken away by a number that was given out, and then the extra ones. -/
structure Attended (listener : Option L) (past : List (Deed H L)) (b : Bindings L) (id : FileId)
    (w : Watch H) (since : List (Deed H L)) (own : List (Binding L)) : Prop where
  added : ∃ before first, past = before ++ .added id first :: since ∧
    { w with last := first.last } = first
  steady : ∀ d ∈ since, ¬ d.Turns id
  default : own.map Binding.listener = listener.toList
  bindings : b.of id = own ++ extras id since
  given : ∀ x ∈ own, x.number < b.next
  apart : ∀ x ∈ own, ∀ j y, .bound j y ∈ past → y.number ≠ x.number

structure InStep (listener : Option L) (past : List (Deed H L)) (m : Monitor H L) : Prop where
  default : m.listener = listener
  watched : ∀ id, m.watcher.bindings.isBound id = true → m.watcher.isWatching id = true
  given : ∀ id x, .bound id x ∈ past → x.number < m.watcher.bindings.next
  attended : ∀ id w, m.watcher.watch? id = some w →
    ∃ since own, Attended listener past m.watcher.bindings id w since own

theorem Attended.later {listener : Option L} {past deeds : List (Deed H L)} {b b' : Bindings L}
    {id : FileId} {w w' : Watch H} {since : List (Deed H L)} {own : List (Binding L)}
    (h : Attended listener past b id w since own) (same : { w' with last := w.last } = w)
    (steady : ∀ d ∈ deeds, ¬ d.Turns id) (bindings : b'.of id = own ++ extras id (since ++ deeds))
    (next : b.next ≤ b'.next)
    (apart : ∀ x ∈ own, ∀ j y, .bound j y ∈ deeds → y.number ≠ x.number) :
    Attended listener (past ++ deeds) b' id w' (since ++ deeds) own := by
  obtain ⟨⟨before, first, split, kept⟩, steady', default, _, given, apart'⟩ := h
  refine ⟨⟨before, first, ?_, ?_⟩, ?_, default, bindings, ?_, ?_⟩
  · rw [split, List.append_assoc]
    rfl
  · exact (congrArg (fun v : Watch H => { v with last := first.last }) same).trans kept
  · intro d hd
    rcases List.mem_append.1 hd with hd | hd
    · exact steady' d hd
    · exact steady d hd
  · intro x hx
    exact Nat.lt_of_lt_of_le (given x hx) next
  · intro x hx j y hy
    rcases List.mem_append.1 hy with hy | hy
    · exact apart' x hx j y hy
    · exact apart x hx j y hy

section

variable {listener : Option L} {past : List (Deed H L)} {b : Bindings L} {id : FileId} {w : Watch H}
  {since : List (Deed H L)} {own : List (Binding L)}

theorem Attended.bound (h : Attended listener past b id w since own)
    (unused : ∀ j, .unbound j b.next ∉ since) (l : L) :
    let deed : Deed H L := .bound id ⟨b.next, l⟩
    Attended listener (past ++ [deed]) (b.bind id l).2 id w (since ++ [deed]) own := by
  intro deed
  refine h.later rfl ?_ ?_ (Nat.le_succ _) ?_
  · intro d hd
    rw [List.mem_singleton.1 hd]
    exact fun turns => turns
  · have extra : extras id (since ++ [deed]) = extras id since ++ [⟨b.next, l⟩] :=
      extras_bound unused
    rw [Bindings.of_bind_self, extra, ← List.append_assoc, h.bindings]
  · intro x hx j y hy
    simp only [deed, List.mem_singleton, Deed.bound.injEq] at hy
    rw [hy.2]
    exact Nat.ne_of_gt (h.given x hx)

theorem Attended.unbound (h : Attended listener past b id w since own) {j : FileId} {number : Nat}
    {l : L} (known : .bound j ⟨number, l⟩ ∈ past) :
    let deed : Deed H L := .unbound id number
    Attended listener (past ++ [deed]) (b.unbindListener id number).2 id w (since ++ [deed]) own := by
  intro deed
  refine h.later rfl ?_ ?_ (Nat.le_refl _) ?_
  · intro d hd
    rw [List.mem_singleton.1 hd]
    exact fun turns => turns
  · -- The number of the monitor's own listener has not been given to anybody.
    have stays : own.filter (fun x => x.number != number) = own := by
      refine List.filter_eq_self.2 fun x hx => ?_
      have apart := h.apart x hx j ⟨number, l⟩ known
      exact bne_iff_ne.2 (Ne.symm apart)
    have extra : extras id (since ++ [deed]) =
      (extras id since).filter fun x => x.number != number := extras_unbound id since number
    rw [Bindings.of_unbindListener, if_pos rfl, h.bindings, List.filter_append, stays, extra]
  · intro x _ i y hy
    simp [deed] at hy

end

theorem InStep.unwatched {listener : Option L} {past : List (Deed H L)} {m : Monitor H L}
    (h : InStep listener past m) {id : FileId} (unwatched : m.watcher.isWatching id = false) :
    m.watcher.bindings.of id = [] := by
  apply Bindings.of_eq_nil
  cases bound : m.watcher.bindings.isBound id with
  | false => rfl
  | true => exact absurd (h.watched id bound) (Bool.eq_false_iff.1 unwatched)

namespace InStep

variable {listener : Option L} {past deeds : List (Deed H L)} {m m' : Monitor H L}

theorem new (listener : Option L) (config : Config) :
    InStep listener [] (Monitor.new listener config : Monitor H L) where
  default := rfl
  watched _ h := nomatch h
  given _ _ h := nomatch h
  attended _ _ h := nomatch h

theorem elsewhere (h : InStep listener past m) {id : FileId} {w w' : Watch H}
    (hw : m.watcher.watch? id = some w) (same : { w' with last := w.last } = w)
    (apart : ∀ d ∈ deeds, d.Apart id) {b : Bindings L}
    (bindings : b.of id = m.watcher.bindings.of id) (next : m.watcher.bindings.next ≤ b.next)
    (fresh : ∀ j y, .bound j y ∈ deeds → m.watcher.bindings.next ≤ y.number) :
    ∃ since own, Attended listener (past ++ deeds) b id w' since own := by
  obtain ⟨since, own, attended⟩ := h.attended id w hw
  refine ⟨since ++ deeds, own, attended.later same (fun d hd => (apart d hd).steady) ?_ next ?_⟩
  · rw [bindings, attended.bindings, extras_apart apart]
  · intro x hx j y hy
    have before := attended.given x hx
    have after := fresh j y hy
    omega

theorem given_later (h : InStep listener past m) {b : Bindings L}
    (next : m.watcher.bindings.next ≤ b.next)
    (given : ∀ id x, .bound id x ∈ deeds → x.number < b.next) :
    ∀ id x, .bound id x ∈ past ++ deeds → x.number < b.next := by
  intro id x hx
  rcases List.mem_append.1 hx with hx | hx
  · exact Nat.lt_of_lt_of_le (h.given id x hx) next
  · exact given id x hx

theorem quiet (h : InStep listener past m) (apart : ∀ d ∈ deeds, ∀ id, d.Apart id)
    (default : m'.listener = m.listener) (bindings : m'.watcher.bindings = m.watcher.bindings)
    (watching : ∀ id, m'.watcher.isWatching id = m.watcher.isWatching id)
    (watches : ∀ id w', m'.watcher.watch? id = some w' →
      ∃ w, m.watcher.watch? id = some w ∧ { w' with last := w.last } = w) :
    InStep listener (past ++ deeds) m' := by
  have unbound : ∀ id x, .bound id x ∉ deeds := by
    intro id x hx
    exact apart_bound.1 (apart _ hx id) rfl
  refine ⟨default.trans h.default, ?_, ?_, ?_⟩
  · intro id bound
    rw [bindings] at bound
    rw [watching]
    exact h.watched id bound
  · rw [bindings]
    exact h.given_later (Nat.le_refl _) fun id x hx => absurd hx (unbound id x)
  · intro id w' hw'
    obtain ⟨w, hw, same⟩ := watches id w' hw'
    rw [bindings]
    exact h.elsewhere hw same (fun d hd => apart d hd id) rfl (Nat.le_refl _)
      fun j y hy => absurd hy (unbound j y)

theorem same (h : InStep listener past m) : InStep listener (past ++ []) m :=
  h.quiet nofun rfl rfl (fun _ => rfl) fun _ w hw => ⟨w, hw, rfl⟩

end InStep

section

variable (m : Monitor H L) (id : FileId) (file : H) (recursive : Bool) (baseline : Option Snapshot)

theorem bindings_insert : (m.insert id file recursive baseline).watcher.bindings =
    m.listener.elim m.watcher.bindings fun l => (m.watcher.bindings.bind id l).2 := by
  rw [insert]
  cases m.listener <;> rfl

theorem bindings_insert_ne {j : FileId} (h : j ≠ id) :
    (m.insert id file recursive baseline).watcher.bindings.of j = m.watcher.bindings.of j ∧
      (m.insert id file recursive baseline).watcher.bindings.isBound j =
        m.watcher.bindings.isBound j := by
  rw [bindings_insert]
  cases m.listener with
  | none => exact ⟨rfl, rfl⟩
  | some l =>
    refine ⟨Bindings.of_bind_ne _ h l, ?_⟩
    simpa [h] using Bindings.isBound_bind m.watcher.bindings id j l

theorem bindings_insert_self (empty : m.watcher.bindings.of id = []) :
    (m.insert id file recursive baseline).watcher.bindings.of id =
        (m.listener.map fun l => ⟨m.watcher.bindings.next, l⟩).toList ∧
      m.watcher.bindings.next + m.listener.toList.length =
        (m.insert id file recursive baseline).watcher.bindings.next := by
  rw [bindings_insert]
  cases m.listener with
  | none => exact ⟨empty, rfl⟩
  | some l =>
    refine ⟨?_, rfl⟩
    refine (Bindings.of_bind_self _ id l).trans ?_
    rw [empty]
    rfl

end

namespace InStep

variable {listener : Option L} {past : List (Deed H L)} {m : Monitor H L}

theorem attended_insert (h : InStep listener past m) {id : FileId}
    (unwatched : m.watcher.isWatching id = false) (file : H) (recursive : Bool)
    (baseline : Option Snapshot) :
    let first : Watch H := ⟨file, recursive, baseline, m.watcher.serial + 1⟩
    let b := (m.insert id file recursive baseline).watcher.bindings
    Attended listener (past ++ [.added id first]) b id first [] (b.of id) := by
  intro first b
  obtain ⟨own, next⟩ := bindings_insert_self m id file recursive baseline (h.unwatched unwatched)
  rw [h.default] at own next
  have only : ∀ x ∈ b.of id, x.number = m.watcher.bindings.next ∧ x.number < b.next := by
    intro x hx
    rw [own] at hx
    cases listener with
    | none => cases hx
    | some l =>
      rw [List.mem_singleton.1 hx]
      exact ⟨rfl, Nat.lt_of_lt_of_eq (Nat.lt_succ_self _) next⟩
  refine ⟨⟨past, first, rfl, rfl⟩, nofun, ?_, (List.append_nil _).symm, ?_, ?_⟩
  · rw [own]
    cases listener <;> rfl
  · intro x hx
    exact (only x hx).2
  · intro x hx j y hy
    have number := (only x hx).1
    have before := h.given j y (by simpa using hy)
    omega

theorem register (h : InStep listener past m) (id : FileId) (file : H) (recursive : Bool)
    (baseline : Option Snapshot) :
    let step : Step H L := .register id file recursive baseline
    InStep listener (past ++ step.deeds m) (step.apply m) := by
  intro step
  rcases register_cases m id file recursive baseline with ⟨still, none⟩ | ⟨unwatched, put, deed⟩
  · rw [still, none]
    exact h.same
  obtain ⟨_, next⟩ := bindings_insert_self m id file recursive baseline (h.unwatched unwatched)
  have next : m.watcher.bindings.next ≤
      (m.insert id file recursive baseline).watcher.bindings.next := by omega
  rw [put, deed]
  refine ⟨h.default, ?_, h.given_later next fun j x hx => by simp at hx, ?_⟩
  · intro j bound
    rw [Watcher.isWatching, watch?_insert]
    split
    · rfl
    · next other =>
      rw [(bindings_insert_ne m id file recursive baseline other).2] at bound
      exact h.watched j bound
  · intro j w hw
    rw [watch?_insert] at hw
    split at hw
    · next this =>
      subst this
      cases hw
      exact ⟨[], _, h.attended_insert unwatched file recursive baseline⟩
    · next other =>
      refine h.elsewhere hw rfl ?_ (bindings_insert_ne m id file recursive baseline other).1 next ?_
      · simpa using Ne.symm other
      · intro k y hy
        simp at hy

theorem remove (h : InStep listener past m) (id : FileId) :
    let step : Step H L := .remove id
    InStep listener (past ++ step.deeds m) (step.apply m) := by
  intro step
  have deed : ∀ d ∈ step.deeds m, d = .removed id := by
    intro d hd
    simp only [step, Step.deeds] at hd
    split at hd
    · exact List.mem_singleton.1 hd
    · cases hd
  have unbound : ∀ j x, .bound j x ∉ step.deeds m := by
    intro j x hx
    cases deed _ hx
  refine ⟨h.default, ?_, h.given_later (Nat.le_refl _) fun j x hx => absurd hx (unbound j x), ?_⟩
  · intro j bound
    have there := (Bindings.isBound_unbind m.watcher.bindings id j).symm.trans bound
    rw [Bool.and_eq_true, Bool.not_eq_true', decide_eq_false_iff_not] at there
    have kept := Watcher.watch?_remove id j m.watcher
    rw [if_neg there.1] at kept
    refine Eq.trans (congrArg Option.isSome kept) ?_
    exact h.watched j there.2
  · intro j w hw
    have kept := (Watcher.watch?_remove id j m.watcher).symm.trans hw
    split at kept
    · cases kept
    · next other =>
      refine h.elsewhere kept rfl ?_ ?_ (Nat.le_refl _) fun k y hy => absurd hy (unbound k y)
      · intro d hd
        rw [deed d hd, apart_removed]
        exact Ne.symm other
      · exact (Bindings.of_unbind m.watcher.bindings id j).trans (if_neg other)

theorem unbound_lt (h : InStep listener past m) (proper : Proper past) {id : FileId} {number : Nat}
    (unbound : .unbound id number ∈ past) : number < m.watcher.bindings.next := by
  obtain ⟨before, after, split⟩ := List.append_of_mem unbound
  obtain ⟨j, l, bound⟩ := proper before id number after split
  apply h.given j ⟨number, l⟩
  rw [split]
  exact List.mem_append_left _ bound

theorem addListener (h : InStep listener past m) (proper : Proper past) (id : FileId) (l : L) :
    let step : Step H L := .addListener id l
    InStep listener (past ++ step.deeds m) (step.apply m) := by
  intro step
  cases watching : m.watcher.isWatching id with
  | false =>
    have refused : m.addListener id l = (none, m) := by simp [Monitor.addListener, watching]
    simp only [step, Step.deeds, Step.apply, refused]
    exact h.same
  | true =>
    have bind : m.addListener id l = (some m.watcher.bindings.next,
        m.onWatcher fun w => { w with bindings := (w.bindings.bind id l).2 }) := if_pos watching
    have deed : step.deeds m = [.bound id ⟨m.watcher.bindings.next, l⟩] := by
      simp [step, Step.deeds, bind]
    have next : m.watcher.bindings.next ≤ (m.watcher.bindings.bind id l).2.next := Nat.le_succ _
    rw [deed, Step.apply, bind]
    refine ⟨h.default, ?_, h.given_later next ?_, ?_⟩
    · intro j bound
      have there := (Bindings.isBound_bind m.watcher.bindings id j l).symm.trans bound
      rw [Bool.or_eq_true, decide_eq_true_eq] at there
      rcases there with rfl | there
      · exact watching
      · exact h.watched j there
    · intro j x hx
      cases List.mem_singleton.1 hx
      exact Nat.lt_succ_self _
    · intro j w hw
      by_cases other : j = id
      · subst other
        obtain ⟨since, own, attended⟩ := h.attended j w hw
        have unused : ∀ k, .unbound k m.watcher.bindings.next ∉ since := by
          intro k hk
          obtain ⟨before, first, split, _⟩ := attended.added
          have old : .unbound k m.watcher.bindings.next ∈ past := by
            rw [split]
            exact List.mem_append_right _ (List.mem_cons_of_mem _ hk)
          exact Nat.lt_irrefl _ (h.unbound_lt proper old)
        exact ⟨_, own, attended.bound unused l⟩
      · refine h.elsewhere hw rfl ?_ (Bindings.of_bind_ne m.watcher.bindings other l) next ?_
        · simpa using Ne.symm other
        · intro k y hy
          cases List.mem_singleton.1 hy
          exact Nat.le_refl _

theorem removeListener (h : InStep listener past m) {id : FileId} {number : Nat}
    (proper : Proper (past ++ [.unbound id number])) :
    let step : Step H L := .removeListener id number
    InStep listener (past ++ step.deeds m) (step.apply m) := by
  intro step
  obtain ⟨k, l, bound⟩ := proper past id number [] rfl
  refine ⟨h.default, ?_, h.given_later (Nat.le_refl _) fun j x hx => ?_, ?_⟩
  · intro j there
    exact h.watched j (Bindings.isBound_of_unbindListener there)
  · cases List.mem_singleton.1 hx
  · intro j w hw
    by_cases other : j = id
    · subst other
      obtain ⟨since, own, attended⟩ := h.attended j w hw
      exact ⟨_, own, attended.unbound bound⟩
    · have kept := Bindings.of_unbindListener m.watcher.bindings id j number
      refine h.elsewhere hw rfl ?_ (kept.trans (if_neg other)) (Nat.le_refl _) ?_
      · simpa [step, Step.deeds] using Ne.symm other
      · intro i y hy
        cases List.mem_singleton.1 hy

theorem close (h : InStep listener past m) :
    let step : Step H L := .close
    InStep listener (past ++ step.deeds m) (step.apply m) := by
  intro step
  by_cases closed : m.phase = .closed
  · simp only [step, Step.deeds, Step.apply, Monitor.close, if_pos closed]
    exact h.same
  · simp only [step, Step.deeds, Step.apply, Monitor.close, if_neg closed]
    refine ⟨h.default, ?_, h.given_later (Nat.le_refl _) fun j x hx => ?_, ?_⟩
    · intro j bound
      cases bound
    · cases List.mem_singleton.1 hx
    · intro j w hw
      cases hw

theorem store (h : InStep listener past m) (id : FileId) (serial : Nat) (snapshot : Snapshot) :
    InStep listener (past ++ []) (m.onWatcher (·.store id serial snapshot)) := by
  have look := fun j => Watcher.watch?_store id j serial snapshot m.watcher
  have bindings := (m.watcher.store_frame id serial snapshot).1
  refine h.quiet nofun rfl bindings ?_ ?_
  · intro j
    refine (congrArg Option.isSome (look j)).trans ?_
    split
    · next this =>
      subst this
      exact Option.isSome_map
    · rfl
  · intro j w' hw'
    have found := (look j).symm.trans hw'
    split at found
    · next this =>
      subst this
      obtain ⟨w, hw, rfl⟩ := Option.map_eq_some_iff.1 found
      refine ⟨w, hw, ?_⟩
      rw [Watch.stored]
      split <;> rfl
    · exact ⟨w', found, rfl⟩

theorem step (h : InStep listener past m) (step : Step H L) (proper : Proper (past ++ step.deeds m)) :
    InStep listener (past ++ step.deeds m) (step.apply m) := by
  have aside {m' : Monitor H L} (apart : ∀ d ∈ step.deeds m, ∀ id, d.Apart id)
      (default : m'.listener = m.listener) (watches : m'.watcher.watches = m.watcher.watches)
      (bindings : m'.watcher.bindings = m.watcher.bindings) :
      InStep listener (past ++ step.deeds m) m' := by
    have look : ∀ id, m'.watcher.watch? id = m.watcher.watch? id := fun id => by
      rw [Watcher.watch?, watches, Watcher.watch?]
    exact h.quiet apart default bindings (fun id => congrArg Option.isSome (look id))
      fun id w hw => ⟨w, (look id).symm.trans hw, rfl⟩
  have nothing : ∀ d ∈ ([] : List (Deed H L)), ∀ id, d.Apart id :=
    fun d hd => absurd hd List.not_mem_nil
  cases step with
  | register id file recursive baseline => exact h.register id file recursive baseline
  | remove id => exact h.remove id
  | addListener id l => exact h.addListener proper.before id l
  | removeListener id number => exact h.removeListener proper
  | close => exact h.close
  | store id serial snapshot => exact h.store id serial snapshot
  | start =>
    refine aside nothing ?_ ?_ ?_ <;>
    · rw [Step.apply, start]
      split <;> rfl
  | stop =>
    refine aside nothing ?_ ?_ ?_ <;>
    · rw [Step.apply, stop]
      split <;> rfl
  | receive i =>
    refine aside (fun d hd id => ?_) rfl rfl rfl
    simp only [Step.deeds] at hd
    split at hd
    · rw [List.mem_singleton.1 hd]
      exact apart_taken
    · cases hd
    · cases hd
  | drain i => exact aside (by simp [Step.deeds]) rfl rfl rfl
  | drop i => exact aside (by simp [Step.deeds]) rfl rfl rfl
  | _ => exact aside nothing rfl rfl rfl

theorem steps (h : InStep listener past m) {deeds : List (Deed H L)} {m' : Monitor H L}
    (steps : Steps m deeds m') (proper : Proper (past ++ deeds)) :
    InStep listener (past ++ deeds) m' := by
  induction steps generalizing past with
  | rest => exact h.same
  | step first _ ih =>
    rw [← List.append_assoc] at proper ⊢
    exact ih (h.step first proper.before) proper

end InStep

end PathWatch.Monitor
