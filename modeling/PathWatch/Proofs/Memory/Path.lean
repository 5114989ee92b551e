import Mathlib.Data.List.Infix
import PathWatch.Memory.Path

/-! Paths that are lists of segments are read back from their text, so no two of
them have one identity. -/
namespace PathWatch

namespace Text

variable {α : Type} [DecidableEq α]

theorem splitOn_of_not_mem {separator : α} {part : List α} (h : separator ∉ part) :
    splitOn separator part = [part] := by
  induction part with
  | nil => rfl
  | cons x part ih =>
    obtain ⟨hx, hpart⟩ := not_or.1 (mt List.mem_cons.2 h)
    exact splitOn_cons_ne (Ne.symm hx) (ih hpart)

theorem splitOn_append (separator : α) (front rest : List α) :
    splitOn separator (front ++ separator :: rest) =
      splitOn separator front ++ splitOn separator rest := by
  induction front with
  | nil => exact if_pos rfl
  | cons x front ih =>
    by_cases hx : x = separator
    · subst hx
      rw [List.cons_append, splitOn, if_pos rfl, ih, splitOn, if_pos rfl, List.cons_append]
    · obtain ⟨part, parts, hs⟩ := List.exists_cons_of_ne_nil (splitOn_ne_nil separator front)
      rw [hs] at ih
      rw [List.cons_append, splitOn_cons_ne hx hs, splitOn_cons_ne hx ih]
      rfl

omit [DecidableEq α] in
theorem intercalate_singleton (separator part : List α) :
    separator.intercalate [part] = part := by simp [List.intercalate]

theorem splitOn_intercalate {separator : α} {part : List α} {parts : List (List α)}
    (h : ∀ p ∈ part :: parts, separator ∉ p) :
    splitOn separator ([separator].intercalate (part :: parts)) = part :: parts := by
  induction parts generalizing part with
  | nil =>
    rw [intercalate_singleton]
    exact splitOn_of_not_mem (h part List.mem_cons_self)
  | cons next parts ih =>
    have joined : [separator].intercalate (part :: next :: parts) =
        part ++ separator :: [separator].intercalate (next :: parts) := by
      simp [List.intercalate]
    have rest := ih fun p hp => h p (List.mem_cons_of_mem part hp)
    rw [joined, splitOn_append, splitOn_of_not_mem (h part List.mem_cons_self), rest]
    rfl

omit [DecidableEq α] in
theorem intercalate_append {separator : List α} {parts : List (List α)} (hne : parts ≠ [])
    (part : List α) (more : List (List α)) : separator.intercalate (parts ++ part :: more) =
      separator.intercalate parts ++ separator ++ separator.intercalate (part :: more) := by
  induction parts with
  | nil => exact absurd rfl hne
  | cons first parts ih =>
    cases parts with
    | nil => simp [List.intercalate_cons_cons]
    | cons second parts =>
      have rest := ih (List.cons_ne_nil second parts)
      rw [List.cons_append] at rest
      rw [List.cons_append, List.cons_append, List.intercalate_cons_cons, rest,
        List.intercalate_cons_cons]
      simp

end Text

namespace Memory.Path

def IsNormal (p : Path) : Prop := ∀ name ∈ p, IsSegment name.toList

theorem IsNormal.of_prefix {p q : Path} (hq : q.IsNormal) (h : p <+: q) : p.IsNormal :=
  fun name hn => hq name (h.mem hn)

theorem splitOn_no_separator {separator : Char} {cs part : List Char}
    (h : part ∈ Text.splitOn separator cs) : separator ∉ part := by
  induction cs generalizing part with
  | nil =>
    rw [List.mem_singleton.1 h]
    exact List.not_mem_nil
  | cons c cs ih =>
    by_cases hc : c = separator
    · rw [Text.splitOn, if_pos hc] at h
      rcases List.mem_cons.1 h with rfl | h
      · exact List.not_mem_nil
      · exact ih h
    · obtain ⟨first, parts, hs⟩ := List.exists_cons_of_ne_nil (Text.splitOn_ne_nil separator cs)
      rw [Text.splitOn_cons_ne hc hs] at h
      rcases List.mem_cons.1 h with rfl | h
      · have hf := ih (hs ▸ List.mem_cons_self : first ∈ Text.splitOn separator cs)
        intro hm
        rcases List.mem_cons.1 hm with e | hm
        · exact hc e.symm
        · exact hf hm
      · exact ih (hs ▸ List.mem_cons_of_mem first h)

theorem isNormal_ofText (text : String) : (ofText text).IsNormal := by
  intro name hn
  obtain ⟨part, hp, rfl⟩ := List.mem_map.1 hn
  obtain ⟨hs, hk⟩ := List.mem_filter.1 hp
  rw [Bool.and_eq_true, decide_eq_true_iff, decide_eq_true_iff] at hk
  rw [String.toList_ofList]
  exact ⟨hk.1, hk.2, splitOn_no_separator hs⟩

theorem dropScheme_append (cs : List Char) : dropScheme (scheme.toList ++ cs) = cs := by
  have found : scheme.toList.isPrefixOf (scheme.toList ++ cs) = true :=
    List.isPrefixOf_iff_prefix.2 (List.prefix_append _ _)
  rw [dropScheme, if_pos found]
  exact List.drop_left' rfl

theorem toList_text (p : Path) : p.text.toList = '/' :: ['/'].intercalate (p.map String.toList) := by
  simp [Path.text, String.toList_intercalate]

theorem splitOn_text {p : Path} (hp : p.IsNormal) (root : p ≠ []) :
    Text.splitOn '/' p.text.toList = [] :: p.map String.toList := by
  obtain ⟨name, names, rfl⟩ := List.exists_cons_of_ne_nil root
  have separate : ∀ part ∈ (name :: names).map String.toList, '/' ∉ part := by
    intro part hpart
    obtain ⟨n, hn, rfl⟩ := List.mem_map.1 hpart
    exact (hp n hn).2.2
  rw [toList_text, Text.splitOn, if_pos rfl]
  exact congrArg _ (Text.splitOn_intercalate separate)

theorem ofText_text {p : Path} (hp : p.IsNormal) : ofText p.text = p := by
  by_cases root : p = []
  · rw [root]
    rfl
  have bare : dropScheme p.text.toList = p.text.toList := by
    rw [toList_text]
    rfl
  have kept : (p.map String.toList).filter (fun part => decide (part ≠ []) && decide (part ≠ ['.'])) =
      p.map String.toList := by
    apply List.filter_eq_self.2
    intro part hpart
    obtain ⟨name, hn, rfl⟩ := List.mem_map.1 hpart
    obtain ⟨nonempty, undotted, _⟩ := hp name hn
    simp [nonempty, undotted]
  rw [ofText, bare, splitOn_text hp root, List.filter_cons_of_neg (by simp), kept, List.map_map]
  simp [Function.comp_def]

theorem ofText_idText {p : Path} (hp : p.IsNormal) : ofText p.idText = p := by
  have text : p.idText.toList = scheme.toList ++ p.text.toList := by simp [idText]
  have bare : dropScheme p.idText.toList = dropScheme p.text.toList := by
    rw [text, dropScheme_append, toList_text]
    rfl
  rw [ofText, bare]
  exact ofText_text hp

/-- What lies at or below a path is told from the texts: in front of it stands the text of the path
and then a slash, so a name that only begins alike is outside. -/
theorem isPrefix_iff_text {p q : Path} (hp : p.IsNormal) (root : p ≠ []) (hq : q.IsNormal) :
    p <+: q ↔ q = p ∨ (p.text ++ "/").toList <+: q.text.toList := by
  have slash : (p.text ++ "/").toList = p.text.toList ++ ['/'] := by simp
  constructor
  · intro below
    obtain ⟨names, rfl⟩ := below
    cases names with
    | nil => exact .inl (List.append_nil p)
    | cons name names =>
      have hne : p.map String.toList ≠ [] := by simpa using root
      rw [slash, toList_text, toList_text, List.map_append, List.map_cons,
        Text.intercalate_append hne]
      exact .inr (List.prefix_append _ _)
  · intro below
    rcases below with rfl | ⟨rest, text⟩
    · exact List.prefix_rfl
    · have other : q ≠ [] := by
        rintro rfl
        have length := congrArg List.length text
        simp [slash, toList_text] at length
      have parts := congrArg (Text.splitOn '/') text
      rw [slash, List.append_assoc, List.singleton_append, Text.splitOn_append,
        splitOn_text hp root, splitOn_text hq other, List.cons_append] at parts
      have front : p.map String.toList <+: q.map String.toList := ⟨_, (List.cons.inj parts).2⟩
      exact (List.prefix_map_iff_of_injective fun _ _ => String.toList_injective).1 front

theorem id_inj {p q : Path} (hp : p.IsNormal) (hq : q.IsNormal) (h : p.id = q.id) : p = q := by
  have texts : p.idText = q.idText := congrArg FileId.text h
  rw [← ofText_idText hp, ← ofText_idText hq, texts]

theorem mem_ancestors {a p : Path} : a ∈ p.ancestors ↔ a <+: p ∧ a ≠ p := by
  induction p generalizing a with
  | nil => simp [ancestors]
  | cons name p ih =>
    simp only [ancestors, List.mem_cons, List.mem_map]
    constructor
    · intro h
      rcases h with rfl | ⟨b, hb, rfl⟩
      · exact ⟨List.nil_prefix, nofun⟩
      · obtain ⟨hp, hne⟩ := ih.1 hb
        exact ⟨List.cons_prefix_cons.2 ⟨rfl, hp⟩, fun e => hne (List.cons.inj e).2⟩
    · intro h
      obtain ⟨hp, hne⟩ := h
      rcases List.prefix_cons_iff.1 hp with rfl | ⟨b, rfl, hb⟩
      · exact .inl rfl
      · exact .inr ⟨b, ih.2 ⟨hb, fun e => hne (by rw [e])⟩, rfl⟩

theorem ancestors_append (p : Path) (name : String) :
    ancestors (p ++ [name]) = ancestors p ++ [p] := by
  induction p with
  | nil => rfl
  | cons first p ih =>
    rw [List.cons_append, ancestors, ih, ancestors]
    simp

theorem parent?_append (p : Path) (name : String) : Path.parent? (p ++ [name]) = some p := by
  simp [parent?]

theorem parent?_eq_some_iff {p parent : Path} :
    p.parent? = some parent ↔ ∃ name, p = parent ++ [name] := by
  constructor
  · intro h
    rcases List.eq_nil_or_concat p with rfl | ⟨q, name, e⟩
    · cases h
    · rw [List.concat_eq_append] at e
      subst e
      rw [parent?_append] at h
      cases h
      exact ⟨name, rfl⟩
  · intro h
    obtain ⟨name, rfl⟩ := h
    exact parent?_append parent name

theorem name_append (p : Path) (name : String) : Path.name (p ++ [name]) = name := by
  simp [Path.name]

end Memory.Path

end PathWatch
