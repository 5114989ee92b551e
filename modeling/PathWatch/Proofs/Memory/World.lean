import PathWatch.Proofs.Cycle.Aloof
import PathWatch.Proofs.Memory.Capture
import PathWatch.Proofs.Memory.Journal

/-! A world is a store in memory and a watcher over it. The store is known by the
journal of all that was done to it, and time goes forward: a round, whatever its
listeners do, only adds to the journal. -/
namespace PathWatch.Memory

open PathWatch.Cycle

structure World (L ρ : Type) where
  journal : List Op
  watcher : Watcher Path L
  rest : ρ

variable {L ρ : Type}

namespace World

def store (w : World L ρ) : Store := Store.empty.run w.journal

def onWatcher : Focus (World L ρ) (Watcher Path L) where
  get w := w.watcher
  set v w := { w with watcher := v }
  get_set _ _ := rfl
  set_get _ := rfl
  set_set _ _ _ := rfl

theorem tree (w : World L ρ) : w.store.Tree := Store.tree_run w.journal

theorem store_of_journal {i w : World L ρ} {ops : List Op} (h : w.journal = i.journal ++ ops) :
    w.store = i.store.run ops := by
  rw [store, h, Store.run_append]
  rfl

end World

def Store.height (s : Store) : Nat := s.nodes.foldr (fun n h => max n.1.length h) 0

theorem deepEnough_height (s : Store) (p : Path) : DeepEnough s p (s.height + 1) := by
  have bound (nodes : List (Path × Node)) : ∀ n ∈ nodes,
      n.1.length ≤ nodes.foldr (fun n h => max n.1.length h) 0 := by
    induction nodes with
    | nil => exact nofun
    | cons m nodes ih =>
      intro n hn
      rw [List.foldr_cons]
      rcases List.mem_cons.1 hn with rfl | hn
      · exact Nat.le_max_left _ _
      · have below := ih n hn
        omega
  refine ⟨Nat.succ_pos _, ?_⟩
  intro r n hr _
  rw [Store.node?_eq] at hr
  have le : r.length ≤ s.height := bound s.nodes _ (Keyed.mem_of_lookup hr)
  omega

structure Outside (L ρ : Type) where
  call : L → ChangeEvent → World L ρ → Outcome × World L ρ
  clock : World L ρ → Duration

namespace Outside

def env (out : Outside L ρ) : Surroundings Path L (World L ρ) where
  toQueries := queries World.store
  call := out.call
  clock := out.clock
  depth w := w.store.height + 1

/-- Listeners leave alone what the watcher holds for the path, and what they do to the store
goes into the journal. -/
structure Respects (out : Outside L ρ) (id : FileId) : Prop where
  same : ∀ l e w, Same World.onWatcher id w (out.call l e w).2
  journal : ∀ l e w, w.journal <+: (out.call l e w).2.journal

variable {out : Outside L ρ} {id : FileId}

theorem Respects.aloof (h : out.Respects id) : Aloof out.env World.onWatcher id where
  isPresent _ _ := rfl
  modified _ _ := rfl
  isFolder _ _ := rfl
  size _ _ := rfl
  children _ _ := rfl
  call := h.same

theorem visitOf_eq {p : Path} {x : Watch Path} (file : x.file = p) (w : World L ρ) :
    visitOf out.env x w =
      Capture.visit (queries World.store) x.recursive (w.store.height + 1) p x.last w := by
  rw [← file]
  rfl

theorem Respects.journal_replay (h : out.Respects id) (acts : List (Act Path L)) (w : World L ρ) :
    w.journal <+: (replay out.env World.onWatcher acts w).journal := by
  refine replay_induction (motive := fun v : World L ρ => w.journal <+: v.journal)
    List.prefix_rfl ?_
  intro a _ v hv
  cases a with
  | capture j x result =>
    have still : (visitOf out.env x v).after = v := visit_after _ _ _ _ _ _
    rw [Act.apply, still]
    exact hv
  | call j b e =>
    have more := h.journal b.listener e v
    exact hv.trans more
  | _ => exact hv

theorem Respects.journal_turn (h : out.Respects id) (ids : List FileId) (w : World L ρ) :
    w.journal <+: (turn out.env World.onWatcher id ids w).journal ∧
      (turn out.env World.onWatcher id ids w).journal <+:
        (runInOrder out.env World.onWatcher ids w).2.journal := by
  refine ⟨h.journal_replay _ w, ?_⟩
  have split : ids.takeWhile (· ≠ id) ++ ids.dropWhile (· ≠ id) = ids :=
    List.takeWhile_append_dropWhile
  have later := replay_roundActs out.env World.onWatcher ids w
  rw [roundActs, ← split, pollEachActs_append, replay_append, replay_append, split] at later
  rw [← later]
  exact (h.journal_replay _ _).trans (h.journal_replay _ _)

end Outside

end PathWatch.Memory
