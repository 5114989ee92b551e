import PathWatch.Proofs.Format.Reading

/-! What is shown of a time by a library of dates and times that does what it says of itself. The
calendar that is computed here is such a library. -/
namespace PathWatch.Calendar

def pattern (items : List Item) : String := String.join (items.map Item.code)

def Item.Plain : Item → Prop
  | literal c => c ≠ '%'
  | _ => True

namespace Moment

def wholeMillis (m : Moment) : Moment :=
  { m with nanosecond := m.nanosecond / 1000000 * 1000000 }

def wholeSeconds (m : Moment) : Moment := { m with nanosecond := 0 }

variable {m : Moment}

theorem valid_wholeMillis (valid : m.Valid) : m.wholeMillis.Valid := by
  have bound := valid.nanosecond
  exact { valid with nanosecond := by dsimp only [wholeMillis]; omega }

theorem instant_wholeMillis (m : Moment) :
    m.wholeMillis.instant.nanos = m.instant.nanos / 1000000 * 1000000 := by
  simp only [instant, dayNumber, secondOfDay, wholeMillis]
  omega

theorem instant_wholeSeconds (valid : m.Valid) :
    m.wholeSeconds.instant.nanos = m.instant.nanos / 1000000000 * 1000000000 := by
  have bound := valid.nanosecond
  simp only [instant, dayNumber, secondOfDay, wholeSeconds]
  omega

end Moment

theorem Stamp.instant_of_utc (m : Moment) : (Stamp.instant ⟨m, 0⟩).nanos = m.instant.nanos := by
  simp [Stamp.instant]

namespace Library

/-- Local times have a date of the calendar and a time of day that is not in a leap second, they name
the time that they come from, and they are written part by part. -/
structure Documented (lib : Library) : Prop where
  valid : ∀ {t d}, lib.ofTime? t = some d → (lib.moment d).Valid
  instant : ∀ {t d}, lib.ofTime? t = some d →
    (lib.moment d).instant.nanos - lib.ahead d * 1000000000 = t.nanos
  rfc3339 : ∀ {d}, (lib.moment d).Valid → 60 ∣ lib.ahead d → ∀ f useZ,
    lib.rfc3339 f useZ d = (lib.moment d).stamped f useZ (lib.ahead d)
  format : ∀ {d}, (lib.moment d).Valid → ∀ items, (∀ i ∈ items, i.Plain) →
    lib.format (pattern items) d = (lib.moment d).written items

def Utc (lib : Library) : Prop := ∀ {t d}, lib.ofTime? t = some d → lib.ahead d = 0

/-- What is shown of a time is read back as the moment, without the milliseconds where only seconds
are shown, and the moment begins the millisecond of the time. -/
structure Shows (lib : Library) (t : Time) (m : Moment) : Prop where
  valid : m.Valid
  timestamp : (lib.timestampOf t).bind (Read.whole Read.stamp) = some ⟨m, 0⟩
  absolute : (lib.absoluteOf t).bind (Read.whole Read.moment) = some m.wholeSeconds
  instant : (Stamp.instant ⟨m, 0⟩).nanos = t.nanos / 1000000 * 1000000

variable {lib : Library} {t u : Time} {d : lib.Local}

theorem timestamp_eq (documented : lib.Documented) (utc : lib.Utc) (h : lib.ofTime? t = some d) :
    lib.timestamp d = (lib.moment d).stamped .millis false 0 := by
  have ahead : lib.ahead d = 0 := utc h
  rw [timestamp, documented.rfc3339 (documented.valid h) (ahead ▸ Int.dvd_zero 60), ahead]

theorem absolute_eq (documented : lib.Documented) (h : lib.ofTime? t = some d) :
    lib.absolute d = (lib.moment d).written (Moment.date ++ .literal ' ' :: Moment.timeOfDay) := by
  have plain : ∀ i ∈ Moment.date ++ .literal ' ' :: Moment.timeOfDay, i.Plain := by
    simp [Moment.date, Moment.timeOfDay, Item.Plain]
  exact documented.format (documented.valid h) _ plain

theorem instant_eq (documented : lib.Documented) (utc : lib.Utc) (h : lib.ofTime? t = some d) :
    (lib.moment d).instant.nanos = t.nanos := by
  have named := documented.instant h
  rw [utc h] at named
  omega

theorem shows_of_documented (documented : lib.Documented) (utc : lib.Utc)
    (h : lib.ofTime? t = some d) :
    lib.Shows t (lib.moment d).wholeMillis := by
  have valid := documented.valid h
  refine ⟨Moment.valid_wholeMillis valid, ?_, ?_, ?_⟩
  · rw [timestampOf, h, Option.map_some, Option.bind_some, timestamp_eq documented utc h]
    exact Read.whole_of_reads (Read.reads_stamped valid)
  · rw [absoluteOf, h, Option.map_some, Option.bind_some, absolute_eq documented h]
    exact Read.whole_of_reads (Read.reads_dateAndTime valid)
  · rw [Stamp.instant_of_utc, Moment.instant_wholeMillis, instant_eq documented utc h]

/-- Times are shown as the milliseconds that they lie in, and in the order that they have. -/
theorem shown_in_order (documented : lib.Documented) (utc : lib.Utc)
    (ht : (lib.ofTime? t).isSome) (hu : (lib.ofTime? u).isSome) :
    ∃ m n, lib.Shows t m ∧ lib.Shows u n ∧ (t.nanos ≤ u.nanos →
      (Stamp.instant ⟨m, 0⟩).nanos ≤ (Stamp.instant ⟨n, 0⟩).nanos ∧
        m.wholeSeconds.instant.nanos ≤ n.wholeSeconds.instant.nanos) := by
  obtain ⟨d, hd⟩ := Option.isSome_iff_exists.1 ht
  obtain ⟨e, he⟩ := Option.isSome_iff_exists.1 hu
  have first := shows_of_documented documented utc hd
  have second := shows_of_documented documented utc he
  refine ⟨_, _, first, second, fun order => ?_⟩
  rw [Moment.instant_wholeSeconds first.valid, Moment.instant_wholeSeconds second.valid,
    ← Stamp.instant_of_utc, ← Stamp.instant_of_utc, first.instant, second.instant]
  omega

end Library

theorem itemsOf_literal {c : Char} (plain : c ≠ '%') (cs : List Char) :
    itemsOf (c :: cs) = .literal c :: itemsOf cs := by
  simp [itemsOf, plain]

theorem itemsOf_pattern {items : List Item} (plain : ∀ i ∈ items, i.Plain) :
    itemsOf (pattern items).toList = items := by
  induction items with
  | nil => rfl
  | cons i items ih =>
    obtain ⟨first, rest⟩ := List.forall_mem_cons.1 plain
    have split : (pattern (i :: items)).toList = i.code.toList ++ (pattern items).toList := by
      simp [pattern]
    rw [split]
    cases i with
    | literal c =>
      have code : (Item.literal c).code.toList = [c] := by simp [Item.code]
      rw [code, List.singleton_append, itemsOf_literal first, ih rest]
    | _ => exact congrArg _ (ih rest)

theorem ofTime?_gregorian {t : Time} {m : Moment} (h : gregorian.ofTime? t = some m) :
    m = Moment.ofTime t := by
  simp only [gregorian] at h
  split at h
  · cases h
    rfl
  · cases h

theorem gregorian_documented : gregorian.Documented where
  valid h := ofTime?_gregorian h ▸ Moment.valid_ofTime _
  instant {t m} h := by
    show m.instant.nanos - 0 * 1000000000 = t.nanos
    rw [ofTime?_gregorian h, Moment.instant_ofTime]
    omega
  rfc3339 _ _ _ _ := rfl
  format _ items plain := by
    show Moment.written _ (itemsOf (pattern items).toList) = _
    rw [itemsOf_pattern plain]
    rfl

theorem gregorian_utc : gregorian.Utc := fun _ => rfl

theorem year_10000_shown_after_1969 :
    let t : Time := ⟨-1⟩
    let u : Time := ⟨253402300800000000000⟩
    gregorian.Documented ∧ gregorian.Utc ∧ (gregorian.ofTime? t).isSome ∧
      (gregorian.ofTime? u).isSome ∧ t.nanos ≤ u.nanos ∧
      gregorian.timestampOf t = some "1969-12-31T23:59:59.999+00:00" ∧
      gregorian.absoluteOf u = some "+10000-01-01 00:00:00" ∧
      ∃ m n, gregorian.Shows t m ∧ gregorian.Shows u n ∧
        (Stamp.instant ⟨m, 0⟩).nanos ≤ (Stamp.instant ⟨n, 0⟩).nanos := by
  intro t u
  have before : (gregorian.ofTime? t).isSome := by decide +kernel
  have after : (gregorian.ofTime? u).isSome := by decide +kernel
  have order : t.nanos ≤ u.nanos := by decide
  obtain ⟨m, n, first, second, later⟩ :=
    Library.shown_in_order gregorian_documented gregorian_utc before after
  have written : gregorian.timestampOf t = some "1969-12-31T23:59:59.999+00:00" := by
    decide +kernel
  have dated : gregorian.absoluteOf u = some "+10000-01-01 00:00:00" := by decide +kernel
  exact ⟨gregorian_documented, gregorian_utc, before, after, order, written, dated, m, n, first,
    second, (later order).1⟩

end PathWatch.Calendar
