import PathWatch.Snapshot

/-!
The changes that lead from one snapshot of a path to the next. A folder that
appears is reported with all it holds, a folder that disappears only by itself.
The time of a folder is not compared.
-/
namespace PathWatch

def Facts.differs (old new : Facts) : Bool :=
  old.isFolder != new.isFolder ||
    (!new.isFolder && (old.modified != new.modified || old.size != new.size))

namespace Snapshot

def names (new old : List (String × Snapshot)) : List String :=
  ((new ++ old).foldr (fun p ns => Keyed.insert p.1 () ns) []).map Prod.fst

def ownChange (old : Option Facts) (new : Facts) : List ChangeEvent :=
  match old, new.present with
  | none, false => []
  | none, true => [.created new.id]
  | some old, false => [.deleted old.id]
  | some old, true => if old.differs new then [.changed new.id] else []

def departure (old : Option Snapshot) : List ChangeEvent :=
  match old with
  | some s => if s.present then [.deleted s.id] else []
  | none => []

mutual

def diff (old : Option Snapshot) : Snapshot → List ChangeEvent
  | .node new children =>
    let old := old.filter present
    let before := (old.map contents).getD []
    ownChange (old.map facts) new ++
      if new.present && new.isFolder then
        let after := diffEach before children
        (names children before).flatMap fun name =>
          (after.lookup name).getD (departure (before.lookup name))
      else []

def diffEach (before : List (String × Snapshot)) :
    List (String × Snapshot) → List (String × List ChangeEvent)
  | [] => []
  | (name, s) :: rest => (name, diff (before.lookup name) s) :: diffEach before rest

end

theorem lookup_diffEach (before children : List (String × Snapshot)) (name : String) :
    (diffEach before children).lookup name =
      (children.lookup name).map (diff (before.lookup name)) := by
  induction children with
  | nil => rfl
  | cons p rest ih =>
    obtain ⟨n, s⟩ := p
    by_cases h : name = n
    · subst h; simp [diffEach]
    · simp [diffEach, Keyed.lookup_cons, h, ih]

end Snapshot

end PathWatch
