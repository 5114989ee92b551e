import Mathlib
import PathWatch.Cli.Run
import PathWatch.Proofs.Capture.Answered
import PathWatch.Proofs.Keyed
import PathWatch.Proofs.Memory.Path
import PathWatch.Proofs.Text.Utf8

/-! Paths on a disk are bytes, but are known by the texts that they are read as. Entries
whose names are read alike share one place in a capture, and paths that are read alike
have one identity. -/
namespace PathWatch.Disk

open Capture

structure IsName (n : Bytes) : Prop where
  ne_nil : n ≠ []
  plain : slash ∉ n
  ne_dot : n ≠ dot
  ne_dotDot : n ≠ dotDot

/-- The handles are local files, whatever the answers to questions about them are. -/
structure Local (labels : Labels) {σ : Type} (q : Queries Path σ) : Prop where
  id : ∀ p, q.id p = ⟨p.text labels⟩
  name : ∀ p, q.name p = p.name labels

variable {labels : Labels} {σ : Type} {q : Queries Path σ} {p : Path} {n : Bytes}

theorem IsName.join_rest (h : IsName n) (p : Path) :
    ∃ front, (p.join n).rest = front ++ slash :: n := by
  have relative : isAbsolute n = false := by
    rw [isAbsolute, beq_eq_false_iff_ne]
    exact fun first => h.plain (List.mem_of_head? first)
  rw [Path.join, relative]
  split
  · contradiction
  split
  · next ends =>
    obtain ⟨front, rest⟩ := List.getLast?_eq_some_iff.1 (beq_iff_eq.1 ends)
    exact ⟨front, by simp [rest]⟩
  · exact ⟨p.rest, rfl⟩

theorem IsName.name_join (h : IsName n) (labels : Labels) (p : Path) :
    (p.join n).name labels = Text.lossyUtf8 n := by
  obtain ⟨front, rest⟩ := h.join_rest p
  have last : (p.join n).steps.getLast? = some n := by
    obtain ⟨part, parts, hs⟩ := List.exists_cons_of_ne_nil (Text.splitOn_ne_nil slash front)
    have all : (p.join n).parts = parts ++ [n] := by
      rw [Path.parts, rest]
      split
      · next empty => exact absurd empty (by simp)
      · rw [Text.splitOn_append, Text.splitOn_of_not_mem h.plain, hs]
        rfl
    simp [Path.steps, all, h.ne_nil, h.ne_dot]
  simp only [Path.name, last, if_neg h.ne_dotDot]

theorem text_join_absolute {a : Bytes} (h : isAbsolute a = true) (labels : Labels) (p : Path) :
    (p.join a).text labels = Text.lossyUtf8 a := by
  rw [Path.join, if_pos h, Path.text, Labels.text, String.empty_append]

variable (labels p) in
/-- The entries `there`, each with its own snapshot, are the children that a capture shows. -/
structure Taken (there : List (Bytes × Snapshot)) (snapshot : Snapshot) : Prop where
  ids : ∀ c ∈ there, c.2.id = ⟨(p.join c.1).text labels⟩
  children : snapshot.contents = Keyed.ofList (there.map fun c => (Text.lossyUtf8 c.1, c.2))
  all : snapshot.contents.length = there.length ↔ (there.map fun c => Text.lossyUtf8 c.1).Nodup
  readable : (∀ c ∈ there, (Text.utf8? c.1).isSome) → snapshot.contents.length = there.length

variable (labels p) in
theorem taken_of_names {there : List (Bytes × Snapshot)} (modified : Time)
    (once : (there.map Prod.fst).Nodup)
    (ids : ∀ c ∈ there, c.2.id = ⟨(p.join c.1).text labels⟩) :
    Taken labels p there (.folder ⟨p.text labels⟩ modified
      (Keyed.ofList (there.map fun c => (Text.lossyUtf8 c.1, c.2)))) := by
  let pairs := there.map fun c => (Text.lossyUtf8 c.1, c.2)
  have keys : Keyed.keys pairs = there.map fun c => Text.lossyUtf8 c.1 := List.map_map
  have all : (Keyed.ofList pairs).length = pairs.length ↔ (Keyed.keys pairs).Nodup :=
    Keyed.length_ofList_eq_iff
  rw [keys, List.length_map] at all
  refine ⟨ids, rfl, all, fun readable => all.2 ?_⟩
  have apart : (there.map Prod.fst).Pairwise (· ≠ ·) := once
  rw [List.Nodup, List.pairwise_map]
  refine (List.pairwise_map.1 apart).imp_of_mem ?_
  intro c c' hc hc' ne
  exact mt (Text.lossyUtf8_inj (readable c hc) (readable c' hc')).1 ne

theorem exists_there {hs : List (Path × Snapshot)} {names : List Bytes}
    (h : (hs.map Prod.fst).Sublist (names.map p.join)) :
    ∃ there : List (Bytes × Snapshot), (there.map Prod.fst).Sublist names ∧
      hs = there.map fun c => (p.join c.1, c.2) := by
  obtain ⟨kept, sub, eq⟩ := List.sublist_map_iff.1 h
  have lengths : kept.length = (hs.map Prod.snd).length := by
    rw [← List.length_map p.join, ← eq, List.length_map, List.length_map]
  refine ⟨kept.zip (hs.map Prod.snd), ?_, ?_⟩
  · rwa [List.map_fst_zip (Nat.le_of_eq lengths)]
  · calc
      hs = (hs.map Prod.fst).zip (hs.map Prod.snd) := List.zip_of_prod rfl rfl
      _ = _ := by rw [eq, List.zip_map_left]; rfl

theorem Local.taken (files : Local labels q) {s t : σ} {modified : Time} {names : List Bytes}
    {depth : Nat} (lists : q.Lists p s modified (names.map p.join) t)
    (proper : ∀ n ∈ names, IsName n) (once : names.Nodup)
    (answered : ∀ c ∈ turns q depth (names.map p.join) t, Answered q depth c.1 c.2) :
    ∃ snapshot there, strict (visit q true (depth + 1) p none s) = .ok snapshot ∧
      (there.map Prod.fst).Sublist names ∧
      seen q depth (names.map p.join) t = there.map (fun c => p.join c.1) ∧
      found q depth (names.map p.join) t = there.map (fun c => (p.join c.1, c.2)) ∧
      Taken labels p there snapshot := by
  obtain ⟨firsts, ids⟩ := found_of_shows fun c hc => (answered c hc).shows
  obtain ⟨there, sub, found⟩ := exists_there (firsts ▸ seen_sublist depth (names.map p.join) t)
  have named : (there.map fun c => (q.name (p.join c.1), c.2)) =
      there.map fun c => (Text.lossyUtf8 c.1, c.2) := by
    refine List.map_congr_left fun c hc => ?_
    rw [files.name, (proper c.1 (sub.mem (List.mem_map_of_mem hc))).name_join]
  have captured := strict_of_answered lists answered
  rw [found, List.map_map] at captured
  refine ⟨_, there, captured, sub, ?_, found, ?_⟩
  · rw [← firsts, found, List.map_map]
    rfl
  · have own : ∀ c ∈ there, c.2.id = ⟨(p.join c.1).text labels⟩ := by
      intro c hc
      rw [← files.id]
      exact ids (p.join c.1, c.2) (found ▸ List.mem_map_of_mem hc)
    have taken := taken_of_names labels p modified (once.sublist sub) own
    rw [files.id]
    exact named ▸ taken

theorem Local.id_eq_iff (files : Local labels q) (d e : Path) {a b : Bytes}
    (ha : isAbsolute a = true) (hb : isAbsolute b = true) :
    q.id (d.join a) = q.id (e.join b) ↔ Text.lossyUtf8 a = Text.lossyUtf8 b := by
  rw [files.id, files.id, text_join_absolute ha, text_join_absolute hb, FileId.mk.injEq]

/-- A capture of a folder has one child for each text that the names of its existing entries are
read as, and so one for each entry if all names are UTF-8; ill-formed names can share a child. In
the same way two absolute paths have one identity exactly if they are read alike. -/
theorem entries_known_by_text (files : Local labels q) :
    (∀ (p : Path) (s t : σ) (modified : Time) (names : List Bytes) (depth : Nat),
      q.Lists p s modified (names.map p.join) t → (∀ n ∈ names, IsName n) → names.Nodup →
      (∀ c ∈ turns q depth (names.map p.join) t, Answered q depth c.1 c.2) →
      ∃ snapshot there, strict (visit q true (depth + 1) p none s) = .ok snapshot ∧
        (there.map Prod.fst).Sublist names ∧
        seen q depth (names.map p.join) t = there.map (fun c => p.join c.1) ∧
        found q depth (names.map p.join) t = there.map (fun c => (p.join c.1, c.2)) ∧
        Taken labels p there snapshot) ∧
    ∀ (d e : Path) (a b : Bytes), isAbsolute a = true → isAbsolute b = true →
      (q.id (d.join a) = q.id (e.join b) ↔ Text.lossyUtf8 a = Text.lossyUtf8 b) ∧
      ((Text.utf8? a).isSome → (Text.utf8? b).isSome →
        (q.id (d.join a) = q.id (e.join b) ↔ a = b)) := by
  refine ⟨?_, ?_⟩
  · intro p s t modified names depth lists proper once answered
    exact files.taken lists proper once answered
  · intro d e a b ha hb
    have same := files.id_eq_iff d e ha hb
    exact ⟨same, fun text text' => same.trans (Text.lossyUtf8_inj text text')⟩

def volume (entries : List (Bytes × Entry)) : Volume :=
  .ofHome ⟨"/home", "/work", "home", "work"⟩ (.folder ⟨0⟩ entries)

theorem local_queries (labels : Labels) : Local labels (Cli.queries labels) :=
  ⟨fun _ => rfl, fun _ => rfl⟩

theorem turns_volume (labels : Labels) (depth : Nat) (hs : List Path) (v : Volume) :
    turns (Cli.queries labels) depth hs v = hs.map fun p => (p, v) := by
  have still : (Cli.queries labels).Within fun v w => w = v := {
    refl := fun _ => rfl
    trans := fun h h' => h'.trans h
    isPresent := fun _ _ => rfl
    modified := fun _ _ => rfl
    isFolder := fun _ _ => rfl
    size := fun _ _ => rfl
    children := fun _ _ => rfl }
  induction hs with
  | nil => rfl
  | cons p hs ih =>
    have after := visit_within still true depth p none v
    rw [turns, after, ih, List.map_cons]

def shelf : Volume :=
  volume [([0x61], .file ⟨#[]⟩ ⟨0⟩), ([0x6C], .link [0x78]), ([0xFF], .file ⟨#[]⟩ ⟨0⟩)]

theorem shelf_entries_known :
    ∃ snapshot there, strict (visit (Cli.queries shelf.labels) true 2 ⟨.home, []⟩ none shelf) =
        .ok snapshot ∧ there.length = 2 ∧ Taken shelf.labels ⟨.home, []⟩ there snapshot := by
  let names : List Bytes := [[0xFF], [0x6C], [0x61]]
  let q := Cli.queries shelf.labels
  have lists : q.Lists ⟨.home, []⟩ shelf ⟨0⟩ (names.map (Path.join ⟨.home, []⟩)) shelf :=
    ⟨shelf, shelf, shelf, congrArg (·, shelf) (by cbv), congrArg (·, shelf) (by cbv),
      congrArg (·, shelf) (by cbv), congrArg (·, shelf) (by cbv)⟩
  have proper : ∀ n ∈ names, IsName n := by
    intro n hn
    have listed : n = [0xFF] ∨ n = [0x6C] ∨ n = [0x61] := by simpa [names] using hn
    rcases listed with rfl | rfl | rfl <;> constructor <;> decide
  have file (n : Bytes) (there : shelf.isPresent ⟨.home, slash :: n⟩ = .ok true)
      (modified : shelf.modified ⟨.home, slash :: n⟩ = .ok ⟨0⟩)
      (plain : shelf.isFolder ⟨.home, slash :: n⟩ = .ok false)
      (size : shelf.size ⟨.home, slash :: n⟩ = .ok 0) :
      Answered q 1 ⟨.home, slash :: n⟩ shelf :=
    .file (congrArg (·, shelf) there) (congrArg (·, shelf) modified) (congrArg (·, shelf) plain)
      (congrArg (·, shelf) size)
  have answered : ∀ c ∈ turns q 1 (names.map (Path.join ⟨.home, []⟩)) shelf,
      Answered q 1 c.1 c.2 := by
    have handles : names.map (Path.join ⟨.home, []⟩) =
      [⟨.home, slash :: [0xFF]⟩, ⟨.home, slash :: [0x6C]⟩, ⟨.home, slash :: [0x61]⟩] := rfl
    rw [turns_volume, handles]
    simp only [List.map_cons, List.map_nil, List.mem_cons, List.not_mem_nil, or_false]
    rintro c (rfl | rfl | rfl)
    · exact file _ (by cbv) (by cbv) (by cbv) (by cbv)
    · exact .absent (congrArg (·, shelf) (by cbv))
    · exact file _ (by cbv) (by cbv) (by cbv) (by cbv)
  obtain ⟨snapshot, there, captured, _, seen, _, taken⟩ :=
    (entries_known_by_text (local_queries shelf.labels)).1 ⟨.home, []⟩ shelf shelf ⟨0⟩ names 1 lists
      proper (by decide) answered
  refine ⟨snapshot, there, captured, ?_, taken⟩
  have two : (Capture.seen q 1 (names.map (Path.join ⟨.home, []⟩)) shelf).length = 2 := by
    rw [Capture.seen, turns_volume]
    cbv
  rwa [seen, List.length_map] at two

theorem two_names_one_child :
    let v := volume [([0xFE], .file ⟨#[]⟩ ⟨0⟩), ([0xFF], .file ⟨#[]⟩ ⟨0⟩)]
    v.children ⟨.home, []⟩ = .ok [⟨.home, [slash, 0xFF]⟩, ⟨.home, [slash, 0xFE]⟩] ∧
      v.isPresent ⟨.home, [slash, 0xFF]⟩ = .ok true ∧
      v.isPresent ⟨.home, [slash, 0xFE]⟩ = .ok true ∧
      (strict (visit (Cli.queries v.labels) true 2 ⟨.home, []⟩ none v)).map
        (·.contents.length) = .ok 1 ∧
      (Cli.queries v.labels).id (.join ⟨.home, []⟩ [slash, 0xFF]) =
        (Cli.queries v.labels).id (.join ⟨.home, []⟩ [slash, 0xFE]) := by
  refine ⟨by cbv, by cbv, by cbv, by cbv, by cbv⟩

end PathWatch.Disk
