import PathWatch.Memory.Key
import PathWatch.Proofs.Memory.Path

/-! The text of a path is its parent's, a slash and its name. So its parent, its name and all that is
above it are found at the last slash of the text, and what lies below it by what texts begin with. -/
namespace PathWatch

namespace Text

variable {α : Type} [DecidableEq α]

theorem lastIndex?_of_not_mem {separator : α} {xs : List α} (h : separator ∉ xs) :
    lastIndex? separator xs = none := by
  cases found : lastIndex? separator xs with
  | none => rfl
  | some i => exact absurd (List.mem_of_getElem? (getElem?_of_lastIndex? found)) h

theorem lastIndex?_append {separator : α} {rest : List α} (h : separator ∉ rest)
    (front : List α) : lastIndex? separator (front ++ separator :: rest) = some front.length := by
  induction front with
  | nil => simp [lastIndex?, lastIndex?_of_not_mem h]
  | cons x front ih => rw [List.cons_append, lastIndex?, ih, List.length_cons]

end Text

namespace Memory

namespace Path

theorem text_eq_join {p : Path} (h : p ≠ []) : p.text = String.join (p.map ("/" ++ ·)) := by
  induction p with
  | nil => exact absurd rfl h
  | cons name p ih =>
    cases p with
    | nil => simp [text]
    | cons next p =>
      have rest := ih (List.cons_ne_nil next p)
      rw [text] at rest ⊢
      rw [List.map_cons, String.join_cons, ← rest, String.intercalate_cons_cons]
      simp [String.append_assoc]

theorem text_append_name (p : Path) (name : String) :
    text (p ++ [name]) = (if p = [] then "" else p.text) ++ "/" ++ name := by
  have named : p ++ [name] ≠ [] := List.append_ne_nil_of_right_ne_nil p (List.cons_ne_nil _ _)
  rw [text_eq_join named, List.map_append, String.join_append]
  by_cases root : p = []
  · subst root
    simp
  · rw [if_neg root, text_eq_join root]
    simp [String.append_assoc]

theorem toList_text_append (p : Path) {rest : Path} (some : rest ≠ []) :
    (p ++ rest).text.toList = (if p = [] then [] else p.text.toList) ++ '/' ::
      ['/'].intercalate (rest.map String.toList) := by
  obtain ⟨name, names, rfl⟩ := List.exists_cons_of_ne_nil some
  by_cases root : p = []
  · subst root
    exact toList_text _
  · have named : p.map String.toList ≠ [] := by simpa using root
    rw [if_neg root, toList_text, toList_text, List.map_append, List.map_cons,
      Text.intercalate_append named]
    simp

theorem toList_text_append_name (p : Path) (name : String) :
    (text (p ++ [name])).toList = (if p = [] then [] else p.text.toList) ++ '/' :: name.toList := by
  rw [toList_text_append p (List.cons_ne_nil name []), List.map_singleton,
    Text.intercalate_singleton]

theorem text_append_ne_root {name : String} (normal : IsSegment name.toList) (p : Path) :
    text (p ++ [name]) ≠ "/" := by
  intro same
  have length := congrArg (List.length ∘ String.toList) same
  have nonempty := List.length_pos_iff.2 normal.1
  simp only [Function.comp_apply, toList_text_append_name, List.length_append, List.length_cons,
    String.reduceToList, List.length_nil] at length
  omega

theorem text_inj {p q : Path} (hp : p.IsNormal) (hq : q.IsNormal) : p.text = q.text ↔ p = q := by
  constructor
  · intro same
    rw [← ofText_text hp, same, ofText_text hq]
  · exact congrArg text

theorem text_eq_root_iff {p : Path} (hp : p.IsNormal) : p.text = "/" ↔ p = [] := by
  constructor
  · intro same
    rw [← ofText_text hp, same]
    rfl
  · rintro rfl
    rfl

end Path

namespace Key

variable {name : String}

theorem parent?_append (normal : IsSegment name.toList) (p : Path) :
    parent? (Path.text (p ++ [name])) = some p.text := by
  rw [parent?, if_neg (Path.text_append_ne_root normal p), Path.toList_text_append_name,
    Text.lastIndex?_append normal.2.2]
  by_cases root : p = []
  · subst root
    rfl
  · rw [if_neg root]
    obtain ⟨n, length⟩ : ∃ n, p.text.toList.length = n + 1 := by
      rw [Path.toList_text]
      exact ⟨_, List.length_cons⟩
    have taken : List.take (n + 1) (p.text.toList ++ '/' :: name.toList) = p.text.toList :=
      List.take_left' length
    simp only [length, taken, String.ofList_toList]

theorem parent?_text {p : Path} (hp : p.IsNormal) : parent? p.text = p.parent?.map Path.text := by
  rcases List.eq_nil_or_concat' p with rfl | ⟨parent, name, rfl⟩
  · rfl
  · rw [parent?_append (hp name (by simp)), Path.parent?_append, Option.map_some]

theorem parent?_text_eq_some_iff {p q : Path} (hp : p.IsNormal) (hq : q.IsNormal) :
    parent? q.text = some p.text ↔ ∃ name, q = p ++ [name] := by
  rw [parent?_text hq, Option.map_eq_some_iff]
  constructor
  · rintro ⟨parent, above, same⟩
    obtain ⟨name, rfl⟩ := Path.parent?_eq_some_iff.1 above
    have normal : parent.IsNormal := hq.of_prefix (List.prefix_append _ _)
    exact ⟨name, by rw [(Path.text_inj normal hp).1 same]⟩
  · rintro ⟨name, rfl⟩
    exact ⟨p, Path.parent?_append p name, rfl⟩

theorem name_append (normal : IsSegment name.toList) (p : Path) :
    Key.name (Path.text (p ++ [name])) = name := by
  rw [Key.name, Path.toList_text_append_name, Text.splitOn_append,
    Text.splitOn_of_not_mem normal.2.2]
  simp

theorem ancestors_root : ancestors "/" = [] := by
  rw [ancestors]
  rfl

theorem ancestors_append (normal : IsSegment name.toList) (p : Path) :
    ancestors (Path.text (p ++ [name])) = p.text :: ancestors p.text := by
  rw [ancestors]
  split
  · next none =>
    rw [parent?_append normal] at none
    cases none
  · next parent found =>
    rw [parent?_append normal] at found
    cases found
    rfl

/-- The loop from parent to parent passes what is above the path. -/
theorem ancestors_text {p : Path} (hp : p.IsNormal) :
    (ancestors p.text).reverse = p.ancestors.map Path.text := by
  induction p using List.reverseRecOn with
  | nil => exact congrArg List.reverse ancestors_root
  | append_singleton p name ih =>
    have above : Path.IsNormal p := hp.of_prefix (List.prefix_append _ _)
    rw [ancestors_append (hp name (by simp)), List.reverse_cons, ih above, Path.ancestors_append,
      List.map_append, List.map_singleton]

theorem toList_front {p : Path} (hp : p.IsNormal) :
    (front p.text).toList = (if p = [] then [] else p.text.toList) ++ ['/'] := by
  rw [front]
  by_cases root : p = []
  · subst root
    rfl
  · rw [if_neg (mt (Path.text_eq_root_iff hp).1 root), if_neg root, String.toList_append]
    rfl

theorem toList_text_below {p rest : Path} (hp : p.IsNormal) (some : rest ≠ []) :
    (p ++ rest).text.toList =
      (front p.text).toList ++ ['/'].intercalate (rest.map String.toList) := by
  rw [Path.toList_text_append p some, toList_front hp, List.append_assoc]
  rfl

theorem toList_text_child {p : Path} (hp : p.IsNormal) (name : String) :
    (Path.text (p ++ [name])).toList = (front p.text).toList ++ name.toList := by
  rw [toList_text_below hp (List.cons_ne_nil name []), List.map_singleton,
    Text.intercalate_singleton]

theorem length_le_front (key : String) : key.length ≤ (front key).length := by
  rw [front]
  split
  · next root => rw [root]
  · rw [String.length_append]
    exact Nat.le_add_right _ _

theorem prefix_of_front {p q : Path} (hp : p.IsNormal) (hq : q.IsNormal)
    (begins : (front p.text).toList <+: q.text.toList) : p <+: q := by
  by_cases root : p = []
  · subst root
    exact List.nil_prefix
  · have slash : front p.text = p.text ++ "/" := if_neg (mt (Path.text_eq_root_iff hp).1 root)
    rw [slash] at begins
    exact (Path.isPrefix_iff_text hp root hq).2 (.inr begins)

theorem child_iff {p q : Path} (hp : p.IsNormal) (hq : q.IsNormal) :
    ((front p.text).toList <+: q.text.toList ∧ (front p.text).length < q.text.length ∧
      '/' ∉ q.text.toList.drop (front p.text).length) ↔ parent? q.text = some p.text := by
  constructor
  · rintro ⟨begins, longer, single⟩
    obtain ⟨rest, rfl⟩ := prefix_of_front hp hq begins
    cases rest with
    | nil =>
      rw [List.append_nil] at longer
      exact absurd longer (Nat.not_lt_of_le (length_le_front p.text))
    | cons name rest =>
      rw [toList_text_below hp (List.cons_ne_nil name rest), List.drop_left' String.length_toList]
        at single
      cases rest with
      | nil => exact parent?_append (hq name (by simp)) p
      | cons next rest => simp [List.intercalate_cons_cons] at single
  · intro child
    obtain ⟨name, rfl⟩ := (parent?_text_eq_some_iff hp hq).1 child
    have segment : IsSegment name.toList := hq name (by simp)
    have cut := toList_text_child hp name
    refine ⟨cut ▸ List.prefix_append _ _, ?_, ?_⟩
    · have nonempty := List.length_pos_iff.2 segment.1
      rw [← String.length_toList, ← String.length_toList, cut, List.length_append]
      omega
    · rw [cut, List.drop_left' String.length_toList]
      exact segment.2.2

end Key

end Memory

end PathWatch
