import PathWatch.Proofs.Memory.Operations

/-! A store refuses to put something at a path only for what is in the way, it names that
in its error, and a refusal leaves no trace: neither node nor time nor clock has moved. -/
namespace PathWatch.Memory

namespace Contents

/-- A file on the way to the path. Above it are folders only, and below it is nothing. -/
structure Obstacle (t : Contents) (p a : Path) : Prop where
  above : a <+: p
  ne : a ≠ p
  file : ∃ bytes, t a = some (.file bytes)
  folders : ∀ q, q <+: a → q ≠ a → t q = some .folder
  nothing : ∀ q, a <+: q → q ≠ a → t q = none

inductive RefusesFile (t : Contents) (p : Path) : FsError → Prop
  | folder (here : t p = some .folder) : RefusesFile t p (.unavailable s!"{p.idText} is a folder")
  | blocked {a : Path} (obstacle : t.Obstacle p a) : RefusesFile t p (.notAFolder a.idText)

inductive RefusesFolder (t : Contents) (p : Path) : FsError → Prop
  | file {bytes : ByteArray} (here : t p = some (.file bytes)) :
      RefusesFolder t p (.notAFolder p.idText)
  | blocked {a : Path} (obstacle : t.Obstacle p a) : RefusesFolder t p (.notAFolder a.idText)

end Contents

namespace Store

structure Refuses (reason : FsError → Prop) (s : Store) (r : Except FsError Unit × Store) :
    Prop where
  fails : ∀ e, r.1 = .error e ↔ reason e
  still : ∀ e, r.1 = .error e → r.2 = s

variable {s : Store} {p : Path}

theorem Refuses.of_performs {can : Prop} {made : Contents} {r : Except FsError Unit × Store}
    {reason : FsError → Prop} (performs : Performs content? can made s r)
    (fails : ∀ e, r.1 = .error e ↔ reason e) : Refuses reason s r where
  fails := fails
  still e failed := by
    refine performs.still fun possible => ?_
    rw [performs.succeeds.2 possible] at failed
    cases failed

theorem Tree.obstacle (h : s.Tree) {a : Path} (above : a <+: p) (ne : a ≠ p) {bytes : ByteArray}
    (file : s.content? a = some (.file bytes)) : s.content?.Obstacle p a where
  above := above
  ne := ne
  file := ⟨bytes, file⟩
  folders q hq hne := by
    obtain ⟨m, hm⟩ := content?_eq_some_iff.1 file
    exact content?_eq_some_iff.2 (h.folder_above hm hq hne)
  nothing q hq hne := by
    rw [content?_eq_none_iff, Option.eq_none_iff_forall_ne_some]
    intro n hn
    obtain ⟨m, folder⟩ := h.folder_above hn hq hne.symm
    rw [content?_eq_some_iff.2 ⟨m, folder⟩] at file
    cases file

theorem put_error_iff (h : s.Tree) {content : Content} {e : FsError} :
    (s.put p content).1 = .error e ↔ ∃ a, s.content?.Obstacle p a ∧ e = .notAFolder a.idText := by
  constructor
  · intro failed
    by_cases blocked : s.content?.Blocked p
    · obtain ⟨a, bytes, above, ne, file⟩ := blocked
      rw [put_blocked h above ne file] at failed
      cases failed
      exact ⟨a, h.obstacle above ne file, rfl⟩
    · rw [(put_performs h p content).succeeds.2 blocked] at failed
      cases failed
  · intro reason
    obtain ⟨a, obstacle, rfl⟩ := reason
    obtain ⟨bytes, file⟩ := obstacle.file
    rw [put_blocked h obstacle.above obstacle.ne file]

theorem write_error_iff (h : s.Tree) {bytes : ByteArray} {e : FsError} :
    (s.write p bytes).1 = .error e ↔ s.content?.RefusesFile p e := by
  rw [write]
  split
  · next m hm =>
    have here : s.content? p = some .folder := content?_eq_some_iff.2 ⟨m, hm⟩
    constructor
    · intro failed
      cases failed
      exact .folder here
    · intro reason
      cases reason with
      | folder => rfl
      | blocked obstacle =>
        rw [obstacle.nothing p obstacle.above obstacle.ne.symm] at here
        cases here
  · next free =>
    rw [put_error_iff h]
    constructor
    · intro reason
      obtain ⟨a, obstacle, rfl⟩ := reason
      exact .blocked obstacle
    · intro reason
      cases reason with
      | folder here =>
        obtain ⟨m, hm⟩ := content?_eq_some_iff.1 here
        exact absurd hm (free m)
      | blocked obstacle => exact ⟨_, obstacle, rfl⟩

theorem createFolder_error_iff (h : s.Tree) {e : FsError} :
    (s.createFolder p).1 = .error e ↔ s.content?.RefusesFolder p e := by
  have blocked {content : Content} (here : s.content? p = some content) {a : Path} :
      ¬ s.content?.Obstacle p a := by
    intro obstacle
    rw [obstacle.nothing p obstacle.above obstacle.ne.symm] at here
    cases here
  rw [createFolder]
  split
  · next m hm =>
    have here : s.content? p = some .folder := content?_eq_some_iff.2 ⟨m, hm⟩
    constructor
    · intro failed
      cases failed
    · intro reason
      cases reason with
      | file file =>
        rw [here] at file
        cases file
      | blocked obstacle => exact absurd obstacle (blocked here)
  · next bytes m hm =>
    have here : s.content? p = some (.file bytes) := content?_eq_some_iff.2 ⟨m, hm⟩
    constructor
    · intro failed
      cases failed
      exact .file here
    · intro reason
      cases reason with
      | file => rfl
      | blocked obstacle => exact absurd obstacle (blocked here)
  · next absent =>
    rw [put_error_iff h]
    constructor
    · intro reason
      obtain ⟨a, obstacle, rfl⟩ := reason
      exact .blocked obstacle
    · intro reason
      cases reason with
      | file here =>
        rw [content?_eq_none_iff.2 absent] at here
        cases here
      | blocked obstacle => exact ⟨_, obstacle, rfl⟩

/-- In whatever way a store came about, what it refuses leaves it as it was. The way to a refused
path has folders down to the file that the error names, and nothing of the rest of it is made. -/
theorem refusal_leaves_no_trace (ops : List Op) (text : String) :
    let s := empty.run ops
    let p := Path.ofText text
    (∀ bytes, Refuses (s.content?.RefusesFile p) s (s.write p bytes)) ∧
      Refuses (s.content?.RefusesFolder p) s (s.createFolder p) := by
  intro s p
  have tree : s.Tree := tree_run ops
  constructor
  · intro bytes
    exact .of_performs (write_performs tree p bytes) fun e => write_error_iff tree
  · exact .of_performs (createFolder_performs tree p) fun e => createFolder_error_iff tree

example : (empty.run [.write "/a/b/c" .empty]).write ["a", "b", "c", "d", "e"] .empty =
    (.error (.notAFolder "mem:///a/b/c"), empty.run [.write "/a/b/c" .empty]) := rfl

end Store

end PathWatch.Memory
