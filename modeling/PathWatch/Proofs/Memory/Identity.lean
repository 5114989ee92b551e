import PathWatch.Proofs.Memory.Key

/-! Which texts stand for one path, what the text of a path looks like, and how a path, its name and
its parent belong together. -/
namespace PathWatch.Memory

/-- The text is these parts with slashes between them, behind a scheme if it begins with one. -/
structure IsSplit (text : String) (parts : List (List Char)) : Prop where
  nonempty : parts ≠ []
  separate : ∀ part ∈ parts, '/' ∉ part
  joined : text.toList = scheme.toList ++ ['/'].intercalate parts ∨
    ¬ scheme.toList <+: text.toList ∧ text.toList = ['/'].intercalate parts

def segments (parts : List (List Char)) : List String :=
  (parts.filter fun part => part ≠ [] ∧ part ≠ ['.']).map String.ofList

theorem dropScheme_of_bare {cs : List Char} (h : ¬ scheme.toList <+: cs) : dropScheme cs = cs :=
  if_neg fun found => h (List.isPrefixOf_iff_prefix.1 found)

theorem IsSplit.dropScheme {text : String} {parts : List (List Char)} (h : IsSplit text parts) :
    dropScheme text.toList = ['/'].intercalate parts := by
  rcases h.joined with joined | ⟨bare, joined⟩
  · rw [joined, Path.dropScheme_append]
  · rw [dropScheme_of_bare bare, joined]

theorem exists_split (text : String) : ∃ parts, IsSplit text parts := by
  refine ⟨Text.splitOn '/' (dropScheme text.toList), Text.splitOn_ne_nil _ _,
    fun part hp => Path.splitOn_no_separator hp, ?_⟩
  rw [Text.intercalate_splitOn]
  by_cases found : scheme.toList <+: text.toList
  · obtain ⟨rest, joined⟩ := found
    rw [← joined, Path.dropScheme_append]
    exact .inl rfl
  · rw [dropScheme_of_bare found]
    exact .inr ⟨found, rfl⟩

namespace Path

theorem ofText_eq_segments {text : String} {parts : List (List Char)} (h : IsSplit text parts) :
    ofText text = segments parts := by
  obtain ⟨part, more, rfl⟩ := List.exists_cons_of_ne_nil h.nonempty
  rw [ofText, h.dropScheme, Text.splitOn_intercalate h.separate, segments]
  simp

theorem id_eq_iff {text other : String} :
    (ofText text).id = (ofText other).id ↔ ofText text = ofText other :=
  ⟨id_inj (isNormal_ofText text) (isNormal_ofText other), congrArg id⟩

theorem normalForm_normalForm (text : String) : normalForm (normalForm text) = normalForm text := by
  rw [normalForm, normalForm, ofText_text (isNormal_ofText text)]

theorem exists_normalForm_iff {text : String} : (∃ t, normalForm t = text) ↔
    text = "/" ∨ ∃ names, names ≠ [] ∧ (∀ name ∈ names, IsSegment name.toList) ∧
      text = String.join (names.map ("/" ++ ·)) := by
  constructor
  · intro h
    obtain ⟨t, rfl⟩ := h
    by_cases root : ofText t = []
    · rw [normalForm, root]
      exact .inl rfl
    · exact .inr ⟨ofText t, root, isNormal_ofText t, text_eq_join root⟩
  · intro h
    rcases h with rfl | ⟨names, some, normal, rfl⟩
    · exact ⟨"/", rfl⟩
    · refine ⟨text names, ?_⟩
      rw [normalForm, ofText_text normal, text_eq_join some]

end Path

namespace Key

/-- Where that many steps from a path to its parent lead. -/
def climb : Nat → String → Option String
  | 0, key => some key
  | n + 1, key => (parent? key).bind (climb n)

theorem climb_append {name : String} (normal : IsSegment name.toList) (n : Nat) (p : Path) :
    climb (n + 1) (Path.text (p ++ [name])) = climb n p.text := by
  rw [climb, parent?_append normal, Option.bind_some]

theorem climb_eq_root_iff {p : Path} (hp : p.IsNormal) {n : Nat} :
    climb n p.text = some "/" ↔ n = p.length := by
  induction p using List.reverseRecOn generalizing n with
  | nil =>
    cases n with
    | zero => exact iff_of_true rfl rfl
    | succ n => exact iff_of_false nofun nofun
  | append_singleton p name ih =>
    have normal : IsSegment name.toList := hp name (by simp)
    cases n with
    | zero => simp [climb, Path.text_append_ne_root normal p]
    | succ n =>
      have above : Path.IsNormal p := hp.of_prefix (List.prefix_append _ _)
      rw [climb_append normal, ih above, List.length_append, List.length_singleton,
        Nat.add_left_inj]

theorem getElem?_ancestors (key : String) (n : Nat) :
    (ancestors key)[n]? = climb (n + 1) key := by
  induction n generalizing key with
  | zero =>
    rw [ancestors, climb]
    split
    · next none => rw [none]; rfl
    · next parent found => rw [found]; rfl
  | succ n ih =>
    rw [ancestors, climb]
    split
    · next none => rw [none]; rfl
    · next parent found => rw [found, List.getElem?_cons_succ, ih, Option.bind_some]

end Key

namespace Path

/-- Texts stand for one path when they have the same segments. The text of a path is a slash before
each of them and stands for that path again, also behind the scheme. Cut at its last slash it gives
the text of the parent and the name, and parents lead to the root in as many steps as there are
segments. -/
theorem paths_are_segments (text other key : String) :
    (∃ parts, IsSplit text parts) ∧
      (∀ parts more, IsSplit text parts → IsSplit other more →
        ((ofText text).id = (ofText other).id ↔ segments parts = segments more)) ∧
      normalForm (normalForm text) = normalForm text ∧
      ((∃ t, normalForm t = text) ↔ text = "/" ∨
        ∃ names, names ≠ [] ∧ (∀ name ∈ names, IsSegment name.toList) ∧
          text = String.join (names.map ("/" ++ ·))) ∧
      (ofText text).id.text = scheme ++ normalForm text ∧
      (ofText (ofText text).id.text).id = (ofText text).id ∧
      (normalForm key = key →
        (key ≠ "/" → ∃ parent, Key.parent? key = some parent ∧ normalForm parent = parent ∧
          ofText key = ofText parent ++ [Key.name key] ∧ IsSegment (Key.name key).toList ∧
          key = (if parent = "/" then "" else parent) ++ "/" ++ Key.name key) ∧
        ∀ n, (Key.climb n key = some "/" ↔ n = (ofText key).length) ∧
          (Key.ancestors key)[n]? = Key.climb (n + 1) key) := by
  refine ⟨exists_split text, ?_, normalForm_normalForm text, exists_normalForm_iff, rfl, ?_, ?_⟩
  · intro parts more cut cut'
    rw [id_eq_iff, ofText_eq_segments cut, ofText_eq_segments cut']
  · exact congrArg id (ofText_idText (isNormal_ofText text))
  intro normal
  obtain ⟨p, hp, rfl⟩ : ∃ p : Path, p.IsNormal ∧ p.text = key :=
    ⟨ofText key, isNormal_ofText key, normal⟩
  rw [ofText_text hp]
  refine ⟨?_, fun n => ⟨Key.climb_eq_root_iff hp, Key.getElem?_ancestors p.text n⟩⟩
  intro named
  obtain ⟨parent, name, rfl⟩ : ∃ (parent : Path) (name : String), p = parent ++ [name] := by
    rcases List.eq_nil_or_concat' p with rfl | split
    · exact absurd rfl named
    · exact split
  have segment : IsSegment name.toList := hp name (by simp)
  have above : parent.IsNormal := hp.of_prefix (List.prefix_append _ _)
  rw [Key.name_append segment]
  refine ⟨parent.text, Key.parent?_append segment parent, congrArg Path.text (ofText_text above), ?_,
    segment, ?_⟩
  · rw [ofText_text above]
  · simp only [text_append_name, text_eq_root_iff above]

theorem scheme_inside_is_segment :
    let text := "mem://a//./mem:/b"
    let other := "/a/mem:/b"
    IsSplit text [['a'], [], ['.'], ['m', 'e', 'm', ':'], ['b']] ∧
      IsSplit other [[], ['a'], ['m', 'e', 'm', ':'], ['b']] ∧
      (ofText text).id = (ofText other).id ∧
      normalForm other = other ∧ other ≠ "/" ∧
      ∃ parent, Key.parent? other = some parent ∧ ofText other = ofText parent ++ [Key.name other] ∧
        other = (if parent = "/" then "" else parent) ++ "/" ++ Key.name other := by
  intro text other
  have cut : IsSplit text [['a'], [], ['.'], ['m', 'e', 'm', ':'], ['b']] :=
    ⟨by decide, by decide, .inl (by decide)⟩
  have cut' : IsSplit other [[], ['a'], ['m', 'e', 'm', ':'], ['b']] :=
    ⟨by decide, by decide, .inr ⟨by decide, by decide⟩⟩
  have normal : normalForm other = other := by decide
  have named : other ≠ "/" := by decide
  obtain ⟨_, same, _, _, _, _, above⟩ := paths_are_segments text other other
  obtain ⟨parent, found, _, split, _, written⟩ := (above normal).1 named
  exact ⟨cut, cut', (same _ _ cut cut').2 rfl, normal, named, parent, found, split, written⟩

end Path

end PathWatch.Memory
