import PathWatch.Proofs.Capture.Frame

/-! What visits of the children one after the other gather: each child under its
name, and the failures in the order in which they were found. -/
namespace PathWatch

namespace Capture

variable {H σ : Type} {q : Queries H σ} {visit : H → Option Snapshot → σ → Visit σ} {s : σ}

def shown (prior : Option Snapshot) : Except FsError Snapshot → Option Snapshot
  | .ok snapshot => if snapshot.present then some snapshot else none
  | .error _ => prior

theorem lookup_add (g : Gathered σ) (name other : String) (id : FileId) (prior : Option Snapshot)
    (v : Visit σ) : (g.add name id prior v).children.lookup other =
      if other = name then (shown prior v.result).or (g.children.lookup other)
      else g.children.lookup other := by
  unfold Gathered.add shown
  obtain ⟨e | snapshot, failures, t⟩ := v
  · cases prior with
    | none => simp
    | some known =>
      by_cases h : other = name
      · subst h
        simp [Keyed.lookup_insert_self]
      · simp [Keyed.lookup_insert_ne h, h]
  · cases hp : snapshot.present with
    | false => simp [hp]
    | true =>
      by_cases h : other = name
      · subst h
        simp [hp, Keyed.lookup_insert_self]
      · simp [hp, Keyed.lookup_insert_ne h, h]

def failuresAt (id : FileId) (v : Visit σ) : List Failure :=
  match v.result with
  | .ok _ => v.failures
  | .error e => v.failures ++ [⟨id, e⟩]

theorem add_failures (g : Gathered σ) (name : String) (id : FileId) (prior : Option Snapshot)
    (v : Visit σ) : (g.add name id prior v).failures = g.failures ++ failuresAt id v := by
  obtain ⟨e | snapshot, failures, t⟩ := v
  · exact List.append_assoc _ _ _
  · rfl

theorem gather_failures (still : ∀ h prior, (visit h prior s).after = s)
    (known : List (String × Snapshot)) (hs : List H) (g : Gathered σ) (hg : g.after = s) :
    (gather q visit known hs g).failures = g.failures ++
      hs.flatMap fun h => failuresAt (q.id h) (visit h (known.lookup (q.name h)) s) := by
  induction hs generalizing g with
  | nil => exact (List.append_nil _).symm
  | cons h hs ih =>
    rw [gather, ih _ (by rw [add_after, hg, still]), add_failures, hg, List.flatMap_cons,
      List.append_assoc]

theorem lookup_gather_of_forall_ne {known : List (String × Snapshot)} {hs : List H} {name : String}
    (h : ∀ a ∈ hs, q.name a ≠ name) (g : Gathered σ) :
    (gather q visit known hs g).children.lookup name = g.children.lookup name := by
  induction hs generalizing g with
  | nil => rfl
  | cons a hs ih =>
    have ne := h a List.mem_cons_self
    rw [gather, ih fun b hb => h b (List.mem_cons_of_mem a hb), lookup_add, if_neg ne.symm]

theorem lookup_gather_of_mem (still : ∀ h prior, (visit h prior s).after = s)
    (known : List (String × Snapshot)) {hs : List H} {h : H} (mem : h ∈ hs)
    (only : ∀ a ∈ hs, q.name a = q.name h → a = h) (g : Gathered σ) (hg : g.after = s) :
    (gather q visit known hs g).children.lookup (q.name h) =
      (shown (known.lookup (q.name h)) (visit h (known.lookup (q.name h)) s).result).or
        (g.children.lookup (q.name h)) := by
  induction hs generalizing g with
  | nil => cases mem
  | cons a hs ih =>
    have only' : ∀ b ∈ hs, q.name b = q.name h → b = h :=
      fun b hb => only b (List.mem_cons_of_mem a hb)
    have after : (g.add (q.name a) (q.id a) (known.lookup (q.name a))
        (visit a (known.lookup (q.name a)) g.after)).after = s := by
      rw [add_after, hg, still]
    rw [gather]
    by_cases hm : h ∈ hs
    · rw [ih hm only' _ after, lookup_add]
      by_cases e : q.name h = q.name a
      · rw [if_pos e, only a List.mem_cons_self e.symm, hg, ← Option.or_assoc, Option.or_self]
      · rw [if_neg e]
    · have e : a = h := ((List.mem_cons.1 mem).resolve_right hm).symm
      subst e
      rw [lookup_gather_of_forall_ne, lookup_add, if_pos rfl, hg]
      intro b hb e
      exact hm (only' b hb e ▸ hb)

end Capture

end PathWatch
