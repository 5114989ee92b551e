import PathWatch.Event
import PathWatch.Keyed
import PathWatch.Time

/-!
What is known about a path at one moment: its own facts and, for a folder that
was looked into, a snapshot of each child by name. A path that is gone has a
snapshot too.
-/
namespace PathWatch

structure Facts where
  id : FileId
  present : Bool
  modified : Option Time
  size : Nat
  isFolder : Bool
deriving DecidableEq, Repr, Inhabited

inductive Snapshot
  | node (facts : Facts) (children : List (String × Snapshot))
deriving Repr

namespace Snapshot

def facts : Snapshot → Facts | .node f _ => f
def children : Snapshot → List (String × Snapshot) | .node _ cs => cs

def id (s : Snapshot) : FileId := s.facts.id
def present (s : Snapshot) : Bool := s.facts.present
def isFolder (s : Snapshot) : Bool := s.facts.isFolder

def missing (id : FileId) : Snapshot := .node ⟨id, false, none, 0, false⟩ []

def file (id : FileId) (modified : Time) (size : Nat) : Snapshot :=
  .node ⟨id, true, some modified, size, false⟩ []

def folder (id : FileId) (modified : Time) (children : List (String × Snapshot)) : Snapshot :=
  .node ⟨id, true, some modified, 0, true⟩ children

instance : Inhabited Snapshot := ⟨.missing default⟩

def child? (s : Snapshot) (name : String) : Option Snapshot := s.children.lookup name

def descend? : List String → Snapshot → Option Snapshot
  | [], s => some s
  | name :: names, s => (s.child? name).bind (descend? names)

def contents (s : Snapshot) : List (String × Snapshot) :=
  if s.present && s.isFolder then s.children else []

mutual

def nodeCount : Snapshot → Nat
  | .node _ cs => 1 + nodeCounts cs

def nodeCounts : List (String × Snapshot) → Nat
  | [] => 0
  | (_, s) :: cs => s.nodeCount + nodeCounts cs

end

mutual

def beforeEpoch : Snapshot → Bool
  | .node f cs => f.modified.any Time.beforeEpoch || anyBeforeEpoch cs

def anyBeforeEpoch : List (String × Snapshot) → Bool
  | [] => false
  | (_, s) :: cs => s.beforeEpoch || anyBeforeEpoch cs

end

mutual

def decEq : (a b : Snapshot) → Decidable (a = b)
  | .node f cs, .node g ds =>
    if h : f = g then
      match decEqAll cs ds with
      | .isTrue h' => .isTrue (by rw [h, h'])
      | .isFalse h' => .isFalse (by simp [h'])
    else .isFalse (by simp [h])

def decEqAll : (cs ds : List (String × Snapshot)) → Decidable (cs = ds)
  | [], [] => .isTrue rfl
  | [], _ :: _ => .isFalse (by simp)
  | _ :: _, [] => .isFalse (by simp)
  | (m, a) :: cs, (n, b) :: ds =>
    if h : m = n then
      match a.decEq b with
      | .isTrue h' =>
        match decEqAll cs ds with
        | .isTrue h'' => .isTrue (by rw [h, h', h''])
        | .isFalse h'' => .isFalse (by simp [h''])
      | .isFalse h' => .isFalse (by simp [h'])
    else .isFalse (by simp [h])

end

instance : DecidableEq Snapshot := decEq

theorem induction {motive : Snapshot → Prop}
    (node : ∀ f cs, (∀ name s, (name, s) ∈ cs → motive s) → motive (.node f cs)) :
    ∀ s, motive s
  | .node f cs => node f cs (below cs)
where
  below : ∀ cs : List (String × Snapshot), ∀ name s, (name, s) ∈ cs → motive s
  | [], _, _, h => by cases h
  | (_, t) :: cs, name, s, h => by
    cases h with
    | head => exact induction node t
    | tail _ h => exact below cs name s h

/-- A listing of a path that is gone is empty, a file has a time and no
children, a folder has a time and no size, and all children exist. -/
def Consistent : Snapshot → Prop
  | .node f cs =>
    (f.present = false → f.modified = none ∧ f.size = 0 ∧ f.isFolder = false ∧ cs = []) ∧
    (f.present = true → f.modified.isSome ∧
      (f.isFolder = false → cs = []) ∧ (f.isFolder = true → f.size = 0)) ∧
    Keyed.Ordered cs ∧ AllConsistent cs
where
  AllConsistent : List (String × Snapshot) → Prop
  | [] => True
  | (_, s) :: cs => s.present = true ∧ Consistent s ∧ AllConsistent cs

theorem consistent_missing (id : FileId) : (missing id).Consistent := by
  simp [missing, Consistent, Consistent.AllConsistent, Keyed.Ordered]

theorem consistent_file (id : FileId) (t : Time) (n : Nat) : (file id t n).Consistent := by
  simp [file, Consistent, Consistent.AllConsistent, Keyed.Ordered]

end Snapshot

end PathWatch
