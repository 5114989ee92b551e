import PathWatch.Proofs.Keyed
import PathWatch.Toml.Document

/-! What holds of the top-level pairs of every document: no two have one key, and a whole number
among them fits into 64 bits with a sign. -/
namespace PathWatch.Toml

def Scan.Gives {α : Type} (s : Scan α) (p : α → Prop) : Prop :=
  ∀ cs a rest, s cs = some (a, rest) → p a

namespace Scan.Gives

variable {α β : Type} {s : Scan α} {f : α → Scan β} {p : α → Prop} {q : β → Prop}

theorem any : s.Gives fun _ => True := fun _ _ _ _ => trivial

theorem reject : (Scan.reject : Scan α).Gives p := fun _ _ _ h => nomatch h

theorem pure {a : α} (h : p a) : (Pure.pure a : Scan α).Gives p := by
  intro cs b rest read
  cases read
  exact h

theorem bind (hs : s.Gives p) (hf : ∀ a, p a → (f a).Gives q) : (s >>= f).Gives q := by
  intro cs b rest read
  cases first : s cs with
  | none => simp [Bind.bind, StateT.bind, first] at read
  | some r =>
    simp only [Bind.bind, StateT.bind, first, Option.bind_some] at read
    exact hf r.1 (hs cs r.1 r.2 first) _ _ _ read

theorem after (hf : ∀ a, (f a).Gives q) : (s >>= f).Gives q := any.bind fun a _ => hf a

theorem repeated {step : α → Scan (α × Bool)} {start : α} (first : p start)
    (next : ∀ a, p a → (step a).Gives fun r => p r.1) : (Scan.repeated step start).Gives p := by
  have loop (fuel : Nat) (a : α) (h : p a) : (Scan.loop step fuel a).Gives p := by
    induction fuel generalizing a with
    | zero => exact reject
    | succ fuel ih =>
      refine (next a h).bind ?_
      intro r hr
      obtain ⟨b, again⟩ := r
      cases again with
      | true => exact ih b hr
      | false => exact pure hr
  intro cs a rest read
  exact loop _ start first cs a rest read

end Scan.Gives

def Item.InRange (item : Item) : Prop :=
  ∀ i, item = .scalar (.integer i) → leastInteger ≤ i ∧ i ≤ greatestInteger

theorem inRange_some {n : Int} {v : Scalar} (h : inRange n = some v) :
    (Item.scalar v).InRange := by
  rw [inRange] at h
  split at h
  · next bounds =>
    cases h
    intro i same
    cases same
    exact bounds
  · cases h

theorem inRange_of_integer {cs : List Char} {v : Scalar} (h : integer cs = some v) :
    (Item.scalar v).InRange := by
  have based {base : Nat} {cs : List Char} (h : basedInteger base cs = some v) :
      (Item.scalar v).InRange := by
    obtain ⟨digits, _, value⟩ := Option.bind_eq_some_iff.1 h
    exact inRange_some value
  rw [integer.eq_def] at h
  split at h
  · exact based h
  · exact based h
  · exact based h
  · obtain ⟨digits, _, value⟩ := Option.bind_eq_some_iff.1 h
    exact inRange_some value

theorem eq_float_of_float {cs : List Char} {v : Scalar} (h : float cs = some v) :
    ∃ x, v = .float x := by
  have ended {p : Prop} [Decidable p] {x : Number.Binary64}
      (h : (if p then none else some (Scalar.float x)) = some v) : ∃ x, v = .float x := by
    split at h
    · cases h
    · cases h
      exact ⟨x, rfl⟩
  simp only [float] at h
  split at h
  · cases h
    exact ⟨_, rfl⟩
  · cases h
    exact ⟨_, rfl⟩
  · obtain ⟨whole, _, h⟩ := Option.bind_eq_some_iff.1 h
    split at h
    · obtain ⟨part, _, h⟩ := Option.bind_eq_some_iff.1 h
      obtain ⟨parts, _, h⟩ := Option.bind_eq_some_iff.1 h
      obtain ⟨power, _, h⟩ := Option.bind_eq_some_iff.1 h
      exact ended h
    · cases h
    · obtain ⟨parts, _, h⟩ := Option.bind_eq_some_iff.1 h
      obtain ⟨power, _, h⟩ := Option.bind_eq_some_iff.1 h
      exact ended h

theorem inRange_of_word {cs : List Char} {v : Scalar} (h : word cs = some v) :
    (Item.scalar v).InRange := by
  rw [word] at h
  split at h
  · cases h
    exact nofun
  · split at h
    · cases h
      exact nofun
    · split at h
      · cases h
        exact nofun
      · cases read : float cs with
        | some u =>
          rw [read] at h
          cases h
          obtain ⟨x, rfl⟩ := eq_float_of_float read
          exact nofun
        | none =>
          rw [read] at h
          exact inRange_of_integer h

theorem gives_bareValue : bareValue.Gives fun v => (Item.scalar v).InRange := by
  intro cs v rest read
  simp only [bareValue] at read
  split at read
  · split at read
    · cases read
      exact nofun
    · cases read
  · obtain ⟨u, found, read⟩ := Option.bind_eq_some_iff.1 read
    cases read
    exact inRange_of_word found

theorem gives_value (depth : Nat) : (value depth).Gives Item.InRange := by
  have text : (do return Item.scalar (.string (← text)) : Scan Item).Gives Item.InRange :=
    .after fun _ => .pure nofun
  have bare : (do return Item.scalar (← bareValue) : Scan Item).Gives Item.InRange :=
    gives_bareValue.bind fun _ h => .pure h
  cases depth with
  | zero =>
    refine .after fun c => ?_
    split
    · exact text
    · exact text
    · exact bare
  | succ depth =>
    refine .after fun c => ?_
    split
    · exact text
    · exact text
    · exact .after fun _ => .after fun _ => .pure nofun
    · exact .after fun _ => .after fun _ => .after fun _ => .pure nofun
    · exact bare

def Line.InRange (l : Line) : Prop := ∀ path name item, l = .pair path name item → item.InRange

theorem gives_line : line.Gives Line.InRange := by
  have pair : (pairOf (value depthLimit)).Gives fun p => p.2.2.InRange :=
    .after fun _ => .after fun _ => .after fun _ =>
      (gives_value depthLimit).bind fun _ h => .pure h
  refine .after fun c => ?_
  split
  · refine .after fun opens => ?_
    split
    · exact .after fun _ => .after fun _ => .pure nofun
    · exact .after fun _ => .after fun _ => .after fun _ => .pure nofun
  · refine pair.bind fun p h => .pure ?_
    intro path name item same
    cases same
    exact h

theorem gives_lines : lines.Gives fun ls => ∀ l ∈ ls, l.InRange := by
  refine .repeated (List.forall_mem_nil _) fun ls h => ?_
  refine .after fun _ => .after fun ended => ?_
  split
  · exact .pure h
  · refine gives_line.bind fun l hl => .after fun _ => .pure ?_
    intro x hx
    rcases List.mem_append.1 hx with hx | hx
    · exact h x hx
    · rw [List.mem_singleton.1 hx]
      exact hl

/-- No two pairs have one key, and whole numbers among them are in range. -/
structure Entries.Sound (es : Entries) : Prop where
  nodup : (Keyed.keys es).Nodup
  inRange : ∀ e ∈ es, e.2.InRange

namespace Entries.Sound

variable {es es' : Entries} {name : String} {item : Item}

theorem nil : Sound [] := ⟨.nil, nofun⟩

theorem append (h : Sound es) (new : es.lookup name = none) (inRange : item.InRange) :
    Sound (es ++ [(name, item)]) where
  nodup := by
    rw [Keyed.keys, List.map_append]
    refine List.nodup_append.2 ⟨h.nodup, List.nodup_singleton name, ?_⟩
    intro k hk l hl same
    rw [List.mem_singleton.1 hl] at same
    subst same
    exact Keyed.lookup_eq_none_iff.1 new hk
  inRange e he := by
    rcases List.mem_append.1 he with he | he
    · exact h.inRange e he
    · rw [List.mem_singleton.1 he]
      exact inRange

theorem replace (h : Sound es) (k : String) (inRange : item.InRange) :
    Sound (es.replace k item) where
  nodup := by
    have same : Keyed.keys (es.replace k item) = Keyed.keys es := by
      rw [Keyed.keys, Entries.replace, List.map_map]
      apply List.map_congr_left
      intro e _
      by_cases hk : e.1 = k <;> simp [hk]
    rw [same]
    exact h.nodup
  inRange e he := by
    obtain ⟨d, hd, rfl⟩ := List.mem_map.1 he
    split
    · exact inRange
    · exact h.inRange d hd

theorem erase (h : Sound es) (k : String) : Sound (Keyed.erase k es) where
  nodup := h.nodup.sublist (List.filter_sublist.map _)
  inRange e he := h.inRange e (List.mem_filter.1 he).1

theorem put {path : List String} {here : Bool} (h : Sound es) (inRange : path = [] → item.InRange)
    (put : Entries.put name item path here es = some es') : Sound es' := by
  cases path with
  | nil =>
    rw [Entries.put] at put
    split at put
    · next free =>
      cases put
      simp only [Bool.and_eq_true, Option.isNone_iff_eq_none] at free
      exact h.append free.2 (inRange rfl)
    · cases put
  | cons k path =>
    rw [Entries.put] at put
    split at put
    · next new =>
      obtain ⟨t, _, same⟩ := Option.bind_eq_some_iff.1 put
      cases same
      exact h.append new nofun
    · obtain ⟨t, _, same⟩ := Option.bind_eq_some_iff.1 put
      cases same
      exact h.replace k nofun
    · obtain ⟨t, _, same⟩ := Option.bind_eq_some_iff.1 put
      cases same
      exact h.replace k nofun
    · split at put
      · cases put
      · obtain ⟨t, _, same⟩ := Option.bind_eq_some_iff.1 put
        cases same
        exact h.replace k nofun
    · cases put

theorem within {α : Type} {f : Entries → Option (α × Entries)} {path : List String} {a : α}
    (h : Sound es) (here : path = [] → f es = some (a, es') → Sound es')
    (within : Entries.within f path es = some (a, es')) : Sound es' := by
  cases path with
  | nil => exact here rfl within
  | cons k path =>
    rw [Entries.within] at within
    split at within
    · next new =>
      obtain ⟨_, _, same⟩ := Option.bind_eq_some_iff.1 within
      cases same
      exact h.append new nofun
    · cases within
    · obtain ⟨_, _, same⟩ := Option.bind_eq_some_iff.1 within
      cases same
      exact h.replace k nofun
    · obtain ⟨_, _, within⟩ := Option.bind_eq_some_iff.1 within
      obtain ⟨_, _, same⟩ := Option.bind_eq_some_iff.1 within
      cases same
      exact h.replace k nofun
    · cases within

end Entries.Sound

/-- The tables closed so far are sound, and the pairs in front of all headers are. -/
structure Draft.Sound (d : Draft) : Prop where
  root : d.root.Sound
  body : d.place = .top → d.body.Sound

namespace Draft.Sound

variable {d d' : Draft} {es : Entries}

theorem close (h : d.Sound) (closed : d.close = some es) : es.Sound := by
  rw [Draft.close] at closed
  split at closed
  · next top =>
    cases closed
    exact h.body top
  · next path name _ =>
    obtain ⟨⟨_, _⟩, within, rfl⟩ := Option.map_eq_some_iff.1 closed
    refine h.root.within (fun _ opened => ?_) within
    cases opened
    refine (h.root.erase name).append ?_ nofun
    rw [Keyed.lookup_erase, if_pos rfl]
  · next path name _ =>
    obtain ⟨⟨_, _⟩, within, rfl⟩ := Option.map_eq_some_iff.1 closed
    refine h.root.within (fun _ opened => ?_) within
    split at opened
    · next new =>
      cases opened
      exact h.root.append new nofun
    · cases opened
      exact h.root.replace name nofun
    · cases opened

theorem reopen (h : es.Sound) {name : String} {body root : Entries}
    (opened : Draft.reopen name es = some (body, root)) : root.Sound := by
  rw [Draft.reopen] at opened
  split at opened
  · cases opened
    exact h
  · cases opened
    exact h.erase name
  · cases opened

theorem startElement (h : es.Sound) {name : String} {root : Entries}
    (opened : Draft.startElement name es = some ((), root)) : root.Sound := by
  rw [Draft.startElement] at opened
  split at opened
  · next new =>
    cases opened
    exact h.append new nofun
  · cases opened
    exact h
  · cases opened

theorem add (h : d.Sound) {l : Line} (inRange : l.InRange) (added : d.add l = some d') :
    d'.Sound := by
  cases l with
  | pair path name item =>
    obtain ⟨body, put, same⟩ := Option.bind_eq_some_iff.1 added
    cases same
    refine ⟨h.root, fun top => ?_⟩
    exact (h.body top).put (fun _ => inRange path name item rfl) put
  | header path name =>
    obtain ⟨es, closed, added⟩ := Option.bind_eq_some_iff.1 added
    obtain ⟨⟨body, root⟩, opened, same⟩ := Option.bind_eq_some_iff.1 added
    cases same
    have sound := h.close closed
    exact ⟨sound.within (fun _ => reopen sound) opened, nofun⟩
  | element path name =>
    obtain ⟨es, closed, added⟩ := Option.bind_eq_some_iff.1 added
    obtain ⟨⟨_, root⟩, opened, same⟩ := Option.bind_eq_some_iff.1 added
    cases same
    have sound := h.close closed
    exact ⟨sound.within (fun _ => startElement sound) opened, nofun⟩

theorem lines {ls : List Line} (h : d.Sound) (inRange : ∀ l ∈ ls, l.InRange)
    (added : ls.foldlM Draft.add d = some d') : d'.Sound := by
  induction ls generalizing d with
  | nil =>
    cases added
    exact h
  | cons l ls ih =>
    obtain ⟨first, rest⟩ := List.forall_mem_cons.1 inRange
    rw [List.foldlM_cons] at added
    obtain ⟨next, step, added⟩ := Option.bind_eq_some_iff.1 added
    exact ih (h.add first step) rest added

end Draft.Sound

theorem sound_of_parse {text : String} {es : Entries} (parsed : parse text = some es) :
    es.Sound := by
  obtain ⟨⟨ls, rest⟩, read, filled⟩ := Option.bind_eq_some_iff.1 parsed
  obtain ⟨d, added, closed⟩ := Option.bind_eq_some_iff.1 filled
  have start : Draft.Sound {} := ⟨.nil, fun _ => .nil⟩
  exact (start.lines (gives_lines _ ls rest read) added).close closed

end PathWatch.Toml
