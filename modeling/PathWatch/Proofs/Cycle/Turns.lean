import PathWatch.Proofs.Cycle.Tally
import PathWatch.Proofs.Watcher.Evolution

/-! Each path that is watched when a round begins has one turn in it, and what is in place
at that moment decides: the watch that is there then is polled, a path without one is passed
over, and a watcher that is closed by then polls nobody any more. -/
namespace PathWatch

namespace Cycle

variable {H L σ : Type} {env : Surroundings H L σ} {here : Focus σ (Watcher H L)}

def Act.file? : Act H L → Option FileId
  | .capture id .. => some id
  | .dispatch id _ => some id
  | .call id _ _ => some id
  | .store id _ _ => some id
  | .report _ => none
  | .finish => none

def polledIds (acts : List (Act H L)) : List FileId :=
  acts.filterMap fun
    | .capture id _ _ => some id
    | _ => none

theorem polledIds_append (xs ys : List (Act H L)) :
    polledIds (xs ++ ys) = polledIds xs ++ polledIds ys :=
  List.filterMap_append

theorem mem_polledIds {acts : List (Act H L)} {id : FileId} :
    id ∈ polledIds acts ↔ ∃ x result, .capture id x result ∈ acts := by
  rw [polledIds, List.mem_filterMap]
  constructor
  · intro h
    obtain ⟨a, ha, named⟩ := h
    cases a with
    | capture j x result =>
      cases named
      exact ⟨x, result, ha⟩
    | _ => cases named
  · intro h
    obtain ⟨x, result, ha⟩ := h
    exact ⟨_, ha, rfl⟩

theorem Act.IsPoll.file_eq {id j : FileId} {serial : Nat} {a : Act H L} (h : a.IsPoll id serial)
    (named : a.file? = some j) : j = id := by
  cases a with
  | capture i watch result =>
    cases named
    exact h.1
  | store i n snapshot =>
    cases named
    exact h.1
  | dispatch i e =>
    cases named
    exact h
  | call i b e =>
    cases named
    exact h
  | report d => cases named
  | finish => cases named

theorem isPoll_of_mem_pollEachActs {ids : List FileId} {s : σ} {a : Act H L}
    (h : a ∈ pollEachActs env here ids s) : ∃ id ∈ ids, ∃ serial, a.IsPoll id serial := by
  induction ids generalizing s with
  | nil => cases h
  | cons id ids ih =>
    simp only [pollEachActs] at h
    split at h
    · cases h
    · rcases List.mem_append.1 h with h | h
      · refine ⟨id, List.mem_cons_self, ?_⟩
        cases hx : (here.get s).watch? id with
        | none =>
          rw [pollActs, hx] at h
          cases h
        | some x => exact ⟨x.serial, isPoll_of_mem_pollActs env here hx h⟩
      · obtain ⟨j, hj, poll⟩ := ih h
        exact ⟨j, List.mem_cons_of_mem id hj, poll⟩

theorem file_of_mem_roundActs {ids : List FileId} {j : FileId} {s : σ} {a : Act H L}
    (h : a ∈ roundActs env here ids s) (named : a.file? = some j) : j ∈ ids := by
  rcases List.mem_append.1 h with h | h
  · obtain ⟨id, hid, serial, poll⟩ := isPoll_of_mem_pollEachActs h
    exact poll.file_eq named ▸ hid
  · rw [List.mem_singleton.1 h] at named
    cases named

theorem polledIds_of_isDelivery {id : FileId} {acts : List (Act H L)}
    (h : ∀ a ∈ acts, a.IsDelivery id) : polledIds acts = [] := by
  refine List.eq_nil_iff_forall_not_mem.2 fun j hj => ?_
  obtain ⟨_, _, ha⟩ := mem_polledIds.1 hj
  exact h _ ha

theorem polledIds_captureActs (id : FileId) (x : Watch H) (s : σ) :
    polledIds (captureActs env here id x s) = [id] := by
  rw [captureActs]
  dsimp only
  split <;> rfl

theorem polledIds_settleActs (id : FileId) (x : Watch H) (v : Visit σ) :
    polledIds (settleActs env here id x v) = [] := by
  rw [settleActs]
  split
  · rfl
  · have reports : ∀ a ∈ failureActs (H := H) (L := L) v.failures, a.IsDelivery id :=
      fun a => isDelivery_of_mem_failureActs
    have failing := polledIds_of_isDelivery reports
    have delivering (es : List ChangeEvent) (t : σ) :
        polledIds (deliverActs env here id x.serial es t) = [] :=
      polledIds_of_isDelivery fun a => isDelivery_of_mem_deliverActs env here
    rw [polledIds_append, polledIds_append, failing, delivering]
    rfl

theorem polledIds_pollActs (id : FileId) (s : σ) :
    polledIds (pollActs env here id s) = if (here.get s).isWatching id then [id] else [] := by
  rw [pollActs, Watcher.isWatching]
  cases (here.get s).watch? id with
  | none => rfl
  | some x =>
    dsimp only
    rw [polledIds_append, polledIds_captureActs, polledIds_settleActs]
    rfl

theorem polledIds_pollEachActs (ids : List FileId) (s : σ) :
    (polledIds (pollEachActs env here ids s)).Sublist ids := by
  induction ids generalizing s with
  | nil => exact .refl []
  | cons id ids ih =>
    simp only [pollEachActs]
    split
    · exact List.nil_sublist _
    · rw [polledIds_append, polledIds_pollActs]
      split
      · exact (ih _).cons_cons id
      · exact (ih _).cons id

variable (env here) in
theorem polledIds_roundActs (ids : List FileId) (s : σ) :
    (polledIds (roundActs env here ids s)).Sublist ids := by
  have finished : polledIds [Act.finish (H := H) (L := L)] = [] := rfl
  rw [roundActs, polledIds_append, finished, List.append_nil]
  exact polledIds_pollEachActs ids s

section

variable {front back : List FileId} {id : FileId} {s : σ}

theorem roundActs_of_unwatched
    (gone : (here.get (replay env here (pollEachActs env here front s) s)).watch? id = none) :
    roundActs env here (front ++ id :: back) s = roundActs env here (front ++ back) s := by
  rw [roundActs, roundActs, pollEachActs_append, pollEachActs_append]
  generalize replay env here (pollEachActs env here front s) s = t at gone
  congr 2
  cases closed : (here.get t).closed with
  | true => rw [pollEachActs_of_closed closed, pollEachActs_of_closed closed]
  | false =>
    have skipped : pollActs env here id t = [] := by rw [pollActs, gone]
    rw [pollEachActs_of_open closed, skipped]
    rfl

theorem roundActs_of_closed
    (closed : (here.get (replay env here (pollEachActs env here front s) s)).closed = true) :
    roundActs env here (front ++ back) s = pollEachActs env here front s ++ [.finish] := by
  rw [roundActs, pollEachActs_append, pollEachActs_of_closed closed, List.append_nil]

theorem roundActs_of_watched {x : Watch H}
    (opened : (here.get (replay env here (pollEachActs env here front s) s)).closed = false)
    (hx : (here.get (replay env here (pollEachActs env here front s) s)).watch? id = some x) :
    ∃ rest, roundActs env here (front ++ id :: back) s = pollEachActs env here front s ++
      .capture id x (visitOf env x (replay env here (pollEachActs env here front s) s)).result ::
        rest := by
  rw [roundActs, pollEachActs_append, pollEachActs_of_open opened, pollActs, hx]
  dsimp only
  rw [captureActs, List.append_assoc, List.append_assoc, List.append_assoc]
  exact ⟨_, rfl⟩

end

theorem runInOrder_congr {ids ids' : List FileId} {s : σ}
    (same : roundActs env here ids s = roundActs env here ids' s) :
    runInOrder env here ids s = runInOrder env here ids' s := by
  refine Prod.ext ?_ ?_
  · exact (counted_roundActs env here ids s).unique (same ▸ counted_roundActs env here ids' s)
  · rw [← replay_roundActs, ← replay_roundActs, same]

variable (here) in
def Onward (s t : σ) : Prop :=
  (here.get t).cycles = (here.get s).cycles ∧
    ((here.get s).closed = true → (here.get t).closed = true)

theorem Onward.of_evolves {s t : σ} {given : List (FileId × Watch H)}
    (h : Evolves (here.get s) given (here.get t)) : Onward here s t := by
  have kept {w w' : Watcher H L} {given : List (FileId × Watch H)} (h : Evolves w given w') :
      w'.cycles = w.cycles ∧ (w.closed = true → w'.closed = true) := by
    induction h with
    | rest => exact ⟨rfl, fun closed => closed⟩
    | request r _ ih =>
      have first (w : Watcher H L) : (r.apply w).cycles = w.cycles ∧
          (w.closed = true → (r.apply w).closed = true) := by
        cases r with
        | close => exact ⟨rfl, fun _ => rfl⟩
        | _ => exact ⟨rfl, fun closed => closed⟩
      exact ⟨ih.1.trans (first _).1, fun closed => ih.2 ((first _).2 closed)⟩
  exact kept h

section

variable (onward : env.Within (Onward here))
include onward

theorem onward_apply {a : Act H L} (unfinished : a ≠ .finish) (s : σ) :
    Onward here s (a.apply env here s) := by
  have update {f : Watcher H L → Watcher H L}
      (hf : ∀ w, (f w).cycles = w.cycles ∧ (f w).closed = w.closed) :
      Onward here s (here.update f s) := by
    rw [Onward, here.get_update, (hf _).1, (hf _).2]
    exact ⟨rfl, fun closed => closed⟩
  cases a with
  | capture => exact Capture.visit_within onward.questions _ _ _ _ _
  | report d => exact update fun _ => ⟨rfl, rfl⟩
  | dispatch => exact onward.refl s
  | call _ b e => exact onward.call _ _ _
  | store id serial snapshot =>
    refine update fun w => ?_
    rw [w.store_eq]
    exact ⟨rfl, rfl⟩
  | finish => exact absurd rfl unfinished

theorem closed_replay (acts : List (Act H L)) {s : σ} (closed : (here.get s).closed = true) :
    (here.get (replay env here acts s)).closed = true := by
  refine replay_induction (motive := fun t => (here.get t).closed = true) closed ?_
  intro a _ t ht
  by_cases finish : a = .finish
  · rw [finish, Act.apply, here.get_update]
    exact ht
  · exact (onward_apply onward finish t).2 ht

theorem cycles_pollEachActs (ids : List FileId) (s : σ) :
    (here.get (replay env here (pollEachActs env here ids s) s)).cycles = (here.get s).cycles := by
  refine replay_induction (motive := fun t => (here.get t).cycles = (here.get s).cycles) rfl ?_
  intro a ha t ht
  have unfinished : a ≠ .finish := by
    intro finish
    obtain ⟨id, _, serial, poll⟩ := isPoll_of_mem_pollEachActs ha
    rw [finish] at poll
    exact poll
  exact (onward_apply onward unfinished t).1.trans ht

theorem cycles_runInOrder (ids : List FileId) (s : σ) :
    (here.get (runInOrder env here ids s).2).cycles = (here.get s).cycles + 1 := by
  have polled := cycles_pollEachActs onward ids s
  have last (t : σ) : replay env here [Act.finish] t =
      here.update (fun w => { w with cycles := w.cycles + 1 }) t := rfl
  rw [← replay_roundActs, roundActs, replay_append, last, here.get_update]
  exact congrArg (· + 1) polled

end

def Act.Open (here : Focus σ (Watcher H L)) (s : σ) : Act H L → Prop
  | .capture .. => (here.get s).closed = false
  | _ => True

theorem open_of_polledIds {acts : List (Act H L)} (h : polledIds acts = []) {s : σ} :
    Throughout env here (Act.Open here) acts s := by
  apply throughout_of_forall
  intro a ha t
  cases a with
  | capture id x result =>
    have polled : id ∈ polledIds acts := mem_polledIds.2 ⟨x, result, ha⟩
    rw [h] at polled
    cases polled
  | _ => trivial

theorem open_pollActs {id : FileId} {s : σ} (opened : (here.get s).closed = false) :
    Throughout env here (Act.Open here) (pollActs env here id s) s := by
  rw [pollActs]
  split
  · trivial
  · next x hx =>
    refine throughout_append.2 ⟨?_, open_of_polledIds (polledIds_settleActs _ _ _)⟩
    rw [captureActs]
    refine ⟨opened, open_of_polledIds ?_⟩
    split <;> rfl

variable (env here) in
theorem open_roundActs (ids : List FileId) (s : σ) :
    Throughout env here (Act.Open here) (roundActs env here ids s) s :=
  throughout_roundActs (fun _ _ => open_pollActs) (fun _ => trivial) ids s

theorem polledIds_of_closed (onward : env.Within (Onward here)) {ids : List FileId} {s : σ}
    {pre post : List (Act H L)} (split : roundActs env here ids s = pre ++ post)
    (closed : (here.get (replay env here pre s)).closed = true) : polledIds post = [] := by
  refine List.eq_nil_iff_forall_not_mem.2 fun id polled => ?_
  obtain ⟨x, result, mem⟩ := mem_polledIds.1 polled
  obtain ⟨between, rest, rfl⟩ := List.append_of_mem mem
  have opened := open_roundActs env here ids s
  rw [split, ← List.append_assoc] at opened
  have now : (here.get (replay env here (pre ++ between) s)).closed = false := opened.at
  rw [replay_append, closed_replay onward between closed] at now
  cases now

variable (env here) in
/-- In a round every path that was watched at its beginning has its turn. If it is watched then, by
whichever watch, it is polled with that one unless the watcher has been closed; if not, the round is
the same as without it. No path is polled twice, a path that was added meanwhile is not polled, and
the round is counted once. -/
theorem polled_at_its_turn {ids : List FileId} {s : σ} (nodup : ids.Nodup)
    (all : ∀ j, j ∈ ids ↔ (here.get s).isWatching j = true) :
    let acts := roundActs env here ids s
    let round := runInOrder env here ids s
    (replay env here acts s = round.2 ∧ Counted acts {} round.1) ∧
    (polledIds acts).Nodup ∧
    (∀ id, (here.get s).isWatching id = false → ∀ a ∈ acts, a.file? ≠ some id) ∧
    (∀ front id back, ids = front ++ id :: back →
      let before := pollEachActs env here front s
      let t := replay env here before s
      ((here.get t).closed = true → acts = before ++ [.finish]) ∧
      ((here.get t).closed = false → ∀ x, (here.get t).watch? id = some x →
        ∃ rest, acts = before ++ .capture id x (visitOf env x t).result :: rest) ∧
      ((here.get t).watch? id = none → (∀ a ∈ acts, a.file? ≠ some id) ∧
        runInOrder env here (front ++ back) s = round)) ∧
    (env.Within (Onward here) →
      (∀ pre post, acts = pre ++ post → (here.get (replay env here pre s)).closed = true →
        polledIds post = []) ∧
      (here.get round.2).cycles = (here.get s).cycles + 1) := by
  intro acts round
  refine ⟨⟨replay_roundActs env here ids s, counted_roundActs env here ids s⟩,
    (polledIds_roundActs env here ids s).nodup nodup, ?_, ?_, ?_⟩
  · intro id unwatched a ha named
    rw [(all id).1 (file_of_mem_roundActs ha named)] at unwatched
    cases unwatched
  · intro front id back split before t
    subst split
    refine ⟨roundActs_of_closed, fun opened x => roundActs_of_watched opened, fun gone => ?_⟩
    have same : acts = roundActs env here (front ++ back) s := roundActs_of_unwatched gone
    refine ⟨?_, runInOrder_congr same.symm⟩
    intro a ha named
    rw [same] at ha
    exact (List.nodup_middle.1 nodup).notMem (file_of_mem_roundActs ha named)
  · intro onward
    exact ⟨fun pre post split closed => polledIds_of_closed onward split closed,
      cycles_runInOrder onward ids s⟩

/-- To ask about "a" replaces the watch of "b" by one of "d", and to ask about "c" closes all. -/
def shuffling : Surroundings FileId Unit (Watcher FileId Unit) where
  id file := file
  name file := file.text
  isPresent file w := (.ok false,
    if file.text = "a" then
      (Request.insert ⟨"d"⟩ ⟨"d"⟩ false none).apply ((Request.remove ⟨"b"⟩).apply w)
    else if file.text = "c" then Request.close.apply w else w)
  modified _ w := (.ok ⟨0⟩, w)
  isFolder _ w := (.ok false, w)
  size _ w := (.ok 0, w)
  children _ w := (.ok [], w)
  call _ _ w := (.accepted, w)
  clock _ := ⟨0⟩
  depth _ := 1

theorem within_shuffling : shuffling.Within (Onward .whole) where
  refl s := ⟨rfl, fun closed => closed⟩
  trans h h' := ⟨h'.1.trans h.1, fun closed => h'.2 (h.2 closed)⟩
  isPresent file w := by
    simp only [shuffling]
    split
    · let replace : Request FileId Unit := .insert ⟨"d"⟩ ⟨"d"⟩ false none
      exact .of_evolves (Evolves.request (.remove ⟨"b"⟩) (.single replace _))
    · split
      · exact .of_evolves (Evolves.single .close w)
      · exact .of_evolves .rest
  modified _ _ := ⟨rfl, fun closed => closed⟩
  isFolder _ _ := ⟨rfl, fun closed => closed⟩
  size _ _ := ⟨rfl, fun closed => closed⟩
  children _ _ := ⟨rfl, fun closed => closed⟩
  call _ _ _ := ⟨rfl, fun closed => closed⟩

def shuffled : Watcher FileId Unit :=
  [⟨"a"⟩, ⟨"b"⟩, ⟨"c"⟩, ⟨"e"⟩].foldl (fun w id => (w.insert id id false none).2) (.new ⟨0⟩ 0 ⟨1⟩ 1)

theorem meddled_paths_passed_over :
    let acts := roundActs shuffling .whole [⟨"a"⟩, ⟨"b"⟩, ⟨"c"⟩, ⟨"e"⟩] shuffled
    (∀ a ∈ acts, a.file? ≠ some ⟨"b"⟩ ∧ a.file? ≠ some ⟨"d"⟩) ∧
      (∃ rest, acts = acts.take 2 ++
        .capture ⟨"c"⟩ ⟨⟨"c"⟩, false, none, 3⟩ (.ok (.missing ⟨"c"⟩)) :: rest) ∧
      polledIds (acts.drop 3) = [] ∧
      (runInOrder shuffling .whole [⟨"a"⟩, ⟨"b"⟩, ⟨"c"⟩, ⟨"e"⟩] shuffled).2.cycles = 1 := by
  intro acts
  have nodup : [⟨"a"⟩, ⟨"b"⟩, ⟨"c"⟩, (⟨"e"⟩ : FileId)].Nodup := by decide
  have all (j : FileId) :
      j ∈ [⟨"a"⟩, ⟨"b"⟩, ⟨"c"⟩, (⟨"e"⟩ : FileId)] ↔ shuffled.isWatching j = true :=
    Watcher.mem_keys_iff_isWatching (w := shuffled)
  obtain ⟨_, _, added, turns, onward⟩ := polled_at_its_turn shuffling .whole nodup all
  obtain ⟨_, _, removed⟩ := turns [⟨"a"⟩] ⟨"b"⟩ [⟨"c"⟩, ⟨"e"⟩] rfl
  obtain ⟨_, polled, _⟩ := turns [⟨"a"⟩, ⟨"b"⟩] ⟨"c"⟩ [⟨"e"⟩] rfl
  obtain ⟨closed, once⟩ := onward within_shuffling
  refine ⟨?_, polled rfl _ rfl, closed (acts.take 3) _ (List.take_append_drop 3 _).symm rfl, once⟩
  intro a ha
  exact ⟨(removed rfl).1 a ha, added ⟨"d"⟩ rfl a ha⟩

end Cycle

end PathWatch
