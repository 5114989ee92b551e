import PathWatch.Config.Decode
import PathWatch.Proofs.Toml.Document

/-! Which documents are settings, what each setting is then, and which of several faults in a
document is the one that is told. -/
namespace PathWatch

inductive Setting
  | delay
  | recursive
  | checksPerRun
  | slowCaptureWarn
  | diagnosticsCapacity
deriving DecidableEq

def SettingType.Takes : SettingType → Toml.Item → Prop
  | .flag, item => ∃ b, item = .scalar (.boolean b)
  | _, item => ∃ n : Nat, n < 2 ^ 63 ∧ item = .scalar (.integer n)

theorem SettingType.takes_integer {type : SettingType} (number : type ≠ .flag) {n : Nat}
    (small : n < 2 ^ 63) : type.Takes (.scalar (.integer n)) := by
  cases type with
  | flag => exact absurd rfl number
  | _ => exact ⟨n, small, rfl⟩

namespace Setting

def key : Setting → String
  | delay => "delay_ms"
  | recursive => "recursive"
  | checksPerRun => "checks_per_run"
  | slowCaptureWarn => "slow_capture_warn_ms"
  | diagnosticsCapacity => "diagnostics_capacity"

def type : Setting → SettingType
  | delay => .millis
  | recursive => .flag
  | checksPerRun => .count
  | slowCaptureWarn => .millis
  | diagnosticsCapacity => .count

def read (c : Config) : Setting → Toml.Scalar
  | delay => .integer c.delayMs
  | recursive => .boolean c.recursive
  | checksPerRun => .integer c.checksPerRun
  | slowCaptureWarn => .integer c.slowCaptureWarnMs
  | diagnosticsCapacity => .integer c.diagnosticsCapacity

def least : Setting → Nat
  | delay => 20
  | diagnosticsCapacity => 1
  | _ => 0

def raised (f : Setting) : Toml.Scalar → Toml.Scalar
  | .integer i => .integer (max i f.least)
  | v => v

theorem key_injective {f g : Setting} (h : f.key = g.key) : f = g := by
  cases f <;> cases g <;> first | rfl | simp [key] at h

theorem config_eq {c d : Config} (h : ∀ f : Setting, f.read c = f.read d) : c = d := by
  obtain ⟨_, _, _, _, _⟩ := c
  obtain ⟨_, _, _, _, _⟩ := d
  have delay := h .delay
  have recursive := h .recursive
  have checks := h .checksPerRun
  have slow := h .slowCaptureWarn
  have capacity := h .diagnosticsCapacity
  simp only [read, Toml.Scalar.integer.injEq, Toml.Scalar.boolean.injEq, Int.natCast_inj] at *
  simp [*]

theorem raised_integer (f : Setting) (n : Nat) :
    f.raised (.integer n) = .integer (max n f.least : Nat) := by
  have same : max (n : Int) f.least = (max n f.least : Nat) := by omega
  rw [raised, same]

theorem read_normalized (f : Setting) {c : Config} (h : c.delayMs ≤ maxMillis) :
    f.read c.normalized = f.raised (f.read c) := by
  have bounded : min (max c.delayMs 20) maxMillis = max c.delayMs 20 := by
    have room : 20 ≤ maxMillis := by decide
    omega
  rw [Config.normalized_eq, bounded]
  cases f with
  | recursive => rfl
  | _ => simp only [read, raised_integer, least, Nat.max_zero]

end Setting

def Fits (e : String × Toml.Item) : Prop := ∃ f : Setting, e.1 = f.key ∧ f.type.Takes e.2

/-- What is wrong with a pair that does not fit. -/
inductive Offends : String × Toml.Item → ConfigError → Prop
  | unknown {key : String} {item : Toml.Item} (other : ∀ f : Setting, f.key ≠ key) :
      Offends (key, item) (.unknownKey key)
  | negative {f : Setting} {i : Int} (number : f.type ≠ .flag) (below : i < 0) :
      Offends (f.key, .scalar (.integer i)) (.negative f.key i f.type)
  | noNumber {f : Setting} {item : Toml.Item} (number : f.type ≠ .flag)
      (other : ∀ i, item ≠ .scalar (.integer i)) :
      Offends (f.key, item) (.wrongType f.key item f.type)
  | noFlag {f : Setting} {item : Toml.Item} (flag : f.type = .flag)
      (other : ∀ b, item ≠ .scalar (.boolean b)) :
      Offends (f.key, item) (.wrongType f.key item f.type)

theorem fits_or_offends {e : String × Toml.Item} (inRange : e.2.InRange) :
    Fits e ∨ ∃ error, Offends e error := by
  obtain ⟨key, item⟩ := e
  by_cases known : ∃ f : Setting, f.key = key
  case neg => exact .inr ⟨_, .unknown fun f same => known ⟨f, same⟩⟩
  obtain ⟨f, rfl⟩ := known
  by_cases number : f.type = .flag
  case pos =>
    by_cases flag : ∃ b, item = .scalar (.boolean b)
    case pos => exact .inl ⟨f, rfl, by rwa [number]⟩
    case neg => exact .inr ⟨_, .noFlag number fun b same => flag ⟨b, same⟩⟩
  by_cases integer : ∃ i, item = .scalar (.integer i)
  case neg => exact .inr ⟨_, .noNumber number fun i same => integer ⟨i, same⟩⟩
  obtain ⟨i, rfl⟩ := integer
  rcases lt_or_ge i 0 with below | natural
  · exact .inr ⟨_, .negative number below⟩
  · obtain ⟨n, rfl⟩ := Int.eq_ofNat_of_zero_le natural
    have most : (n : Int) ≤ Toml.greatestInteger := (inRange n rfl).2
    have greatest : Toml.greatestInteger = 2 ^ 63 - 1 := by decide
    have small : n < 2 ^ 63 := by omega
    exact .inl ⟨f, rfl, SettingType.takes_integer number small⟩

theorem fits_or_first_offends {es : Toml.Entries} (inRange : ∀ e ∈ es, e.2.InRange) :
    (∀ e ∈ es, Fits e) ∨ ∃ pre e post error,
      es = pre ++ e :: post ∧ (∀ p ∈ pre, Fits p) ∧ Offends e error := by
  induction es with
  | nil => exact .inl (by simp)
  | cons e es ih =>
    obtain ⟨bounded, inRange⟩ := List.forall_mem_cons.1 inRange
    rcases fits_or_offends bounded with fits | ⟨error, offends⟩
    · rcases ih inRange with rest | ⟨pre, bad, post, error, rfl, good, offends⟩
      · exact .inl (List.forall_mem_cons.2 ⟨fits, rest⟩)
      · exact .inr ⟨e :: pre, bad, post, error, rfl, List.forall_mem_cons.2 ⟨fits, good⟩, offends⟩
    · exact .inr ⟨[], e, es, error, rfl, by simp, offends⟩

namespace Config

variable {e : String × Toml.Item} {error : ConfigError}

theorem set_of_takes {f : Setting} {item : Toml.Item} (takes : f.type.Takes item) (c : Config) :
    ∃ c', c.set f.key item = .ok c' ∧ item = .scalar (f.read c') ∧
      ∀ g, g ≠ f → g.read c' = g.read c := by
  cases f with
  | recursive =>
    obtain ⟨b, rfl⟩ := takes
    refine ⟨{ c with recursive := b }, rfl, rfl, ?_⟩
    intro g hg
    cases g <;> first | rfl | exact absurd rfl hg
  | _ =>
    obtain ⟨n, _, rfl⟩ := takes
    refine ⟨_, rfl, rfl, ?_⟩
    intro g hg
    cases g <;> first | rfl | exact absurd rfl hg

theorem natural_of_other {item : Toml.Item} (other : ∀ i, item ≠ .scalar (.integer i))
    (key : String) (type : SettingType) :
    natural key type item = .error (.wrongType key item type) := by
  rw [natural.eq_def]
  split
  · exact absurd rfl (other _)
  · exact absurd rfl (other _)
  · rfl

theorem flag_of_other {item : Toml.Item} (other : ∀ b, item ≠ .scalar (.boolean b))
    (key : String) : flag key item = .error (.wrongType key item .flag) := by
  rw [flag.eq_def]
  split
  · exact absurd rfl (other _)
  · rfl

theorem set_of_offends (h : Offends e error) (c : Config) : c.set e.1 e.2 = .error error := by
  cases h with
  | @unknown key item other =>
    show c.set key item = _
    unfold set
    split
    · exact absurd rfl (other .delay)
    · exact absurd rfl (other .recursive)
    · exact absurd rfl (other .checksPerRun)
    · exact absurd rfl (other .slowCaptureWarn)
    · exact absurd rfl (other .diagnosticsCapacity)
    · rfl
  | @negative f i number below =>
    obtain ⟨n, rfl⟩ := Int.eq_negSucc_of_lt_zero below
    cases f with
    | recursive => exact absurd rfl number
    | _ => rfl
  | @noNumber f item number other =>
    cases f with
    | recursive => exact absurd rfl number
    | _ => exact congrArg (Except.map _) (natural_of_other other _ _)
  | @noFlag f item flagged other =>
    cases f with
    | recursive => exact congrArg (Except.map _) (flag_of_other other _)
    | _ => exact nomatch flagged

theorem foldlM_of_fits {es : Toml.Entries} (nodup : (Keyed.keys es).Nodup)
    (fits : ∀ e ∈ es, Fits e) (c : Config) :
    ∃ c', es.foldlM (fun c e => c.set e.1 e.2) c = .ok c' ∧
      (∀ (f : Setting) item, (f.key, item) ∈ es → item = .scalar (f.read c')) ∧
      ∀ f : Setting, f.key ∉ Keyed.keys es → f.read c' = f.read c := by
  induction es generalizing c with
  | nil => exact ⟨c, rfl, by simp, fun _ _ => rfl⟩
  | cons e es ih =>
    obtain ⟨key, value⟩ := e
    obtain ⟨⟨f, rfl, takes⟩, rest⟩ := List.forall_mem_cons.1 fits
    obtain ⟨new, nodup⟩ := List.nodup_cons.1 nodup
    obtain ⟨d, step, put, others⟩ := set_of_takes takes c
    obtain ⟨c', run, given, kept⟩ := ih nodup rest d
    refine ⟨c', ?_, ?_, ?_⟩
    · rw [List.foldlM_cons, step]
      exact run
    · intro g item found
      rcases List.mem_cons.1 found with same | found
      · -- No later pair has this key, so what it set is still there at the end.
        obtain ⟨key, rfl⟩ := Prod.mk.inj same
        rw [Setting.key_injective key, kept f new]
        exact put
      · exact given g item found
    · intro g absent
      obtain ⟨other, absent⟩ := not_or.1 (mt List.mem_cons.2 absent)
      rw [kept g absent, others g fun same => other (congrArg Setting.key same)]

theorem foldlM_of_offends {pre post : Toml.Entries} (good : ∀ p ∈ pre, Fits p)
    (offends : Offends e error) (c : Config) :
    (pre ++ e :: post).foldlM (fun c e => c.set e.1 e.2) c = .error error := by
  induction pre generalizing c with
  | nil =>
    rw [List.nil_append, List.foldlM_cons, set_of_offends offends]
    rfl
  | cons p pre ih =>
    obtain ⟨⟨f, key, takes⟩, good⟩ := List.forall_mem_cons.1 good
    obtain ⟨d, step, _, _⟩ := set_of_takes takes c
    rw [List.cons_append, List.foldlM_cons, key, step]
    exact ih good d

/-- The settings that `es` gives, raised to the least that they can be, over the default ones. -/
structure IsReadFrom (c : Config) (es : Toml.Entries) : Prop where
  given : ∀ (f : Setting) item, (f.key, item) ∈ es →
    ∃ v, item = .scalar v ∧ f.read c = f.raised v
  others : ∀ f : Setting, f.key ∉ Keyed.keys es → f.read c = f.read {}

theorem IsReadFrom.unique {es es' : Toml.Entries} {c d : Config} (hc : c.IsReadFrom es)
    (hd : d.IsReadFrom es') (same : es'.Perm es) : d = c := by
  refine Setting.config_eq fun f => ?_
  by_cases found : f.key ∈ Keyed.keys es
  · obtain ⟨⟨_, item⟩, found, rfl⟩ := List.mem_map.1 found
    obtain ⟨v, rfl, hc⟩ := hc.given f item found
    obtain ⟨w, hw, hd⟩ := hd.given f _ (same.mem_iff.2 found)
    cases hw
    rw [hc, hd]
  · rw [hc.others f found, hd.others f (mt (same.map Prod.fst).mem_iff.1 found)]

theorem delayMs_le {c : Config} {es : Toml.Entries} (fits : ∀ e ∈ es, Fits e)
    (given : ∀ (f : Setting) item, (f.key, item) ∈ es → item = .scalar (f.read c))
    (kept : ∀ f : Setting, f.key ∉ Keyed.keys es → f.read c = f.read {}) :
    c.delayMs ≤ maxMillis := by
  have least : 2 ^ 63 ≤ maxMillis := by decide
  by_cases found : Setting.delay.key ∈ Keyed.keys es
  · obtain ⟨⟨_, item⟩, found, rfl⟩ := List.mem_map.1 found
    obtain ⟨f, key, takes⟩ := fits _ found
    obtain rfl : Setting.delay = f := Setting.key_injective key
    obtain ⟨n, small, value⟩ := takes
    cases value.symm.trans (given _ _ found)
    omega
  · have same : (c.delayMs : Int) = 1000 := Toml.Scalar.integer.inj (kept .delay found)
    omega

theorem ofEntries_of_fits {es : Toml.Entries} (nodup : (Keyed.keys es).Nodup)
    (fits : ∀ e ∈ es, Fits e) :
    ∃ c, ofEntries es = .ok c ∧ c.IsReadFrom es ∧ c.normalized = c := by
  obtain ⟨c, run, given, kept⟩ := foldlM_of_fits nodup fits {}
  have bounded : c.delayMs ≤ maxMillis := delayMs_le fits given kept
  refine ⟨c.normalized, by rw [ofEntries, run]; rfl, ⟨?_, ?_⟩, normalized_normalized c⟩
  · intro f item found
    exact ⟨f.read c, given f item found, f.read_normalized bounded⟩
  · intro f absent
    rw [f.read_normalized bounded, kept f absent]
    cases f <;> rfl

theorem ofEntries_of_offends {pre post : Toml.Entries} (good : ∀ p ∈ pre, Fits p)
    (offends : Offends e error) : ofEntries (pre ++ e :: post) = .error error := by
  rw [ofEntries, foldlM_of_offends good offends]
  rfl

variable {parse : String → Option Toml.Entries}

theorem ofDocument_of_parse {text : String} {es : Toml.Entries} (parsed : parse text = some es) :
    ofDocument parse text = ofEntries es := by
  rw [ofDocument, parsed]

/-- A document is settings when every pair fits, and then the order of the pairs does not matter.
Otherwise the first pair that does not fit is told, whatever stands around it. -/
theorem settings_of_document (sound : ∀ text es, parse text = some es → es.Sound)
    {text : String} {es : Toml.Entries} (parsed : parse text = some es) :
    (Keyed.keys es).Nodup ∧
      ((∃ c, ofDocument parse text = .ok c) ↔ ∀ e ∈ es, Fits e) ∧
      (∀ c, ofDocument parse text = .ok c → c.IsReadFrom es ∧ c.normalized = c) ∧
      (∀ text' es', parse text' = some es' → es'.Perm es → ∀ c,
        ofDocument parse text = .ok c → ofDocument parse text' = .ok c) ∧
      ∀ error, ofDocument parse text = .error error ↔
        ∃ pre e post, es = pre ++ e :: post ∧ (∀ p ∈ pre, Fits p) ∧ Offends e error := by
  have taken {text es} (parsed : parse text = some es) (fits : ∀ e ∈ es, Fits e) :
      ∃ c, ofDocument parse text = .ok c ∧ c.IsReadFrom es ∧ c.normalized = c := by
    rw [ofDocument_of_parse parsed]
    exact ofEntries_of_fits (sound _ _ parsed).nodup fits
  have refused {pre e post error} (split : es = pre ++ e :: post) (good : ∀ p ∈ pre, Fits p)
      (offends : Offends e error) : ofDocument parse text = .error error := by
    rw [ofDocument_of_parse parsed, split]
    exact ofEntries_of_offends good offends
  have first := fits_or_first_offends (sound _ _ parsed).inRange
  have fits {c} (ok : ofDocument parse text = .ok c) : ∀ e ∈ es, Fits e := by
    rcases first with fits | ⟨pre, e, post, error, split, good, offends⟩
    · exact fits
    · cases ok.symm.trans (refused split good offends)
  have read {c} (ok : ofDocument parse text = .ok c) : c.IsReadFrom es ∧ c.normalized = c := by
    obtain ⟨d, ok', read⟩ := taken parsed (fits ok)
    cases ok.symm.trans ok'
    exact read
  refine ⟨(sound _ _ parsed).nodup, ⟨fun ⟨c, ok⟩ => fits ok, fun fits => ?_⟩,
    fun c ok => read ok, ?_, fun error => ⟨fun failed => ?_, ?_⟩⟩
  · obtain ⟨c, ok, _⟩ := taken parsed fits
    exact ⟨c, ok⟩
  · intro text' es' parsed' same c ok
    obtain ⟨d, ok', read', _⟩ := taken parsed' fun e found => fits ok e (same.mem_iff.1 found)
    rw [ok', (read ok).1.unique read' same]
  · rcases first with fits | ⟨pre, e, post, told, split, good, offends⟩
    · obtain ⟨c, ok, _⟩ := taken parsed fits
      cases failed.symm.trans ok
    · cases failed.symm.trans (refused split good offends)
      exact ⟨pre, e, post, split, good, offends⟩
  · rintro ⟨pre, e, post, split, good, offends⟩
    exact refused split good offends

theorem unknown_key_told_first :
    (∀ text es, Toml.parse text = some es → es.Sound) ∧
      ofToml "recursive = true\ncolor = 1\ndelay_ms = -1\n" = .error (.unknownKey "color") ∧
      ∃ c, ofToml "delay_ms = 5\n" = .ok c ∧
        c.IsReadFrom [("delay_ms", .scalar (.integer 5))] ∧ c.normalized = c := by
  have recursive : Fits ("recursive", .scalar (.boolean true)) := ⟨.recursive, rfl, true, rfl⟩
  have delay : Fits ("delay_ms", .scalar (.integer 5)) := ⟨.delay, rfl, 5, by decide, rfl⟩
  have color (f : Setting) : f.key ≠ "color" := by cases f <;> decide
  have faulty : Toml.parse "recursive = true\ncolor = 1\ndelay_ms = -1\n" =
      some [("recursive", .scalar (.boolean true)), ("color", .scalar (.integer 1)),
        ("delay_ms", .scalar (.integer (-1)))] := rfl
  have sound : Toml.parse "delay_ms = 5\n" = some [("delay_ms", .scalar (.integer 5))] := rfl
  have reader : ∀ text es, Toml.parse text = some es → es.Sound := fun _ _ => Toml.sound_of_parse
  obtain ⟨_, _, _, _, told⟩ := settings_of_document reader faulty
  obtain ⟨_, settings, read, _⟩ := settings_of_document reader sound
  refine ⟨reader, (told _).2 ⟨[_], _, [_], rfl, by simpa using recursive, .unknown color⟩, ?_⟩
  obtain ⟨c, ok⟩ := settings.2 (by simpa using delay)
  exact ⟨c, ok, read c ok⟩

end Config

end PathWatch
