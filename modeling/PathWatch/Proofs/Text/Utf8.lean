import PathWatch.Proofs.Text.ByteOrder

/-! Bytes without an ill-formed part are the UTF-8 of the characters read from them, so
none of them are read alike. Ill-formed parts cannot be told from each other any more. -/
namespace PathWatch.Text

theorem toNat_ofNat {n : Nat} (h : n.isValidChar) : (Char.ofNat n).val.toNat = n := by
  rw [Char.ofNat, dif_pos h]
  rfl

theorem ofNat_eq {n : Nat} {a : UInt8} (h : n = a.toNat) : UInt8.ofNat n = a := by
  rw [h, UInt8.ofNat_toNat]

/-- What a first byte demands of the second one keeps out long forms, surrogates and numbers
that are too large. -/
theorem second_bounds {a b low high : UInt8} (range : secondRange a = some (low, high))
    (above : low ≤ b) (below : b ≤ high) :
    194 ≤ a.toNat ∧ a.toNat ≤ 244 ∧ 128 ≤ b.toNat ∧ b.toNat ≤ 191 ∧
      (a.toNat = 224 → 160 ≤ b.toNat) ∧ (a.toNat = 237 → b.toNat ≤ 159) ∧
      (a.toNat = 240 → 144 ≤ b.toNat) ∧ (a.toNat = 244 → b.toNat ≤ 143) := by
  simp only [secondRange, Bool.and_eq_true, decide_eq_true_eq, UInt8.le_iff_toNat_le,
    ← UInt8.toNat_inj, UInt8.reduceToNat] at *
  split_ifs at range
  all_goals
    cases range
    simp only [UInt8.reduceToNat] at above below
    omega

variable {a b c d : UInt8}

theorem encode_ascii (h : a.toNat < 128) : String.utf8EncodeChar (Char.ofNat a.toNat) = [a] := by
  have valid : a.toNat.isValidChar := .inl (by omega)
  rw [String.utf8EncodeChar, toNat_ofNat valid, if_pos (by omega), UInt8.ofNat_toNat]

theorem encode_twoBytes (first : 194 ≤ a.toNat ∧ a.toNat ≤ 223)
    (second : 128 ≤ b.toNat ∧ b.toNat ≤ 191) : String.utf8EncodeChar (twoBytes a b) = [a, b] := by
  have value : (twoBytes a b).val.toNat = a.toNat % 32 * 64 + b.toNat % 64 :=
    toNat_ofNat (.inl (by rw [tailBits]; omega))
  rw [String.utf8EncodeChar, value]
  rw [if_neg (by omega), if_pos (by omega), ofNat_eq (a := a) (by omega),
    ofNat_eq (a := b) (by omega)]

theorem encode_threeBytes (first : 224 ≤ a.toNat ∧ a.toNat ≤ 239)
    (second : 128 ≤ b.toNat ∧ b.toNat ≤ 191) (long : a.toNat = 224 → 160 ≤ b.toNat)
    (surrogate : a.toNat = 237 → b.toNat ≤ 159) (third : 128 ≤ c.toNat ∧ c.toNat ≤ 191) :
    String.utf8EncodeChar (threeBytes a b c) = [a, b, c] := by
  have value : (threeBytes a b c).val.toNat =
      (a.toNat % 16 * 64 + b.toNat % 64) * 64 + c.toNat % 64 := by
    refine toNat_ofNat ?_
    simp only [tailBits, Nat.isValidChar]
    omega
  rw [String.utf8EncodeChar, value]
  rw [if_neg (by omega), if_neg (by omega), if_pos (by omega), ofNat_eq (a := a) (by omega),
    ofNat_eq (a := b) (by omega), ofNat_eq (a := c) (by omega)]

theorem encode_fourBytes (first : 240 ≤ a.toNat ∧ a.toNat ≤ 244)
    (second : 128 ≤ b.toNat ∧ b.toNat ≤ 191) (long : a.toNat = 240 → 144 ≤ b.toNat)
    (large : a.toNat = 244 → b.toNat ≤ 143) (third : 128 ≤ c.toNat ∧ c.toNat ≤ 191)
    (fourth : 128 ≤ d.toNat ∧ d.toNat ≤ 191) :
    String.utf8EncodeChar (fourBytes a b c d) = [a, b, c, d] := by
  have value : (fourBytes a b c d).val.toNat =
      ((a.toNat % 8 * 64 + b.toNat % 64) * 64 + c.toNat % 64) * 64 + d.toNat % 64 := by
    refine toNat_ofNat ?_
    simp only [tailBits, Nat.isValidChar]
    omega
  rw [String.utf8EncodeChar, value]
  rw [if_neg (by omega), if_neg (by omega), if_neg (by omega), ofNat_eq (a := a) (by omega),
    ofNat_eq (a := b) (by omega), ofNat_eq (a := c) (by omega), ofNat_eq (a := d) (by omega)]

theorem isContinuation_iff : isContinuation b = true ↔ 128 ≤ b.toNat ∧ b.toNat ≤ 191 := by
  simp [isContinuation, UInt8.le_iff_toNat_le]

theorem encode_firstPart {rest : List UInt8} {ch : Char} {k : Nat}
    (h : firstPart a rest = (some ch, k)) : String.utf8EncodeChar ch = a :: rest.take k := by
  -- in the order of `firstPart`: every way out but the four lengths gives no character
  simp only [firstPart, UInt8.lt_iff_toNat_lt, UInt8.reduceToNat] at h
  split at h
  · next ascii =>
    cases h
    exact encode_ascii ascii
  split at h
  case h_2 => cases h
  next low high b rest range =>
  split at h
  · cases h
  next within =>
  simp only [Bool.or_eq_true, decide_eq_true_eq, not_or, Nat.not_lt] at within
  obtain ⟨least, most, second, second', long, surrogate, long', large⟩ :=
    second_bounds range within.1 within.2
  split at h
  · cases h
    exact encode_twoBytes ⟨least, by omega⟩ ⟨second, second'⟩
  cases rest with
  | nil => cases h
  | cons c rest =>
  dsimp only at h
  split at h
  · cases h
  next third =>
  rw [Bool.not_eq_true, Bool.not_eq_false', isContinuation_iff] at third
  split at h
  · cases h
    exact encode_threeBytes (by omega) ⟨second, second'⟩ long surrogate third
  cases rest with
  | nil => cases h
  | cons d rest =>
  dsimp only at h
  split at h
  · next fourth =>
    cases h
    exact encode_fourBytes (by omega) ⟨second, second'⟩ long' large third
      (isContinuation_iff.1 fourth)
  · cases h

theorem decodeFrom_eq (k : Nat) (bytes : List UInt8) :
    decodeFrom k bytes = decodeUtf8 (bytes.drop k) := by
  induction k generalizing bytes with
  | zero => rfl
  | succ k ih =>
    cases bytes with
    | nil => rfl
    | cons b bytes => exact ih bytes

theorem decodeUtf8_cons (a : UInt8) (rest : List UInt8) : decodeUtf8 (a :: rest) =
    (firstPart a rest).1 :: decodeUtf8 (rest.drop (firstPart a rest).2) :=
  congrArg _ (decodeFrom_eq _ _)

theorem eq_encode_of_decode {bytes : List UInt8} {cs : List Char}
    (h : decodeUtf8 bytes = cs.map some) : bytes = cs.flatMap String.utf8EncodeChar := by
  induction cs generalizing bytes with
  | nil =>
    cases bytes with
    | nil => rfl
    | cons a rest => cases (decodeUtf8_cons a rest).symm.trans h
  | cons ch cs ih =>
    cases bytes with
    | nil => cases h
    | cons a rest =>
      rw [decodeUtf8_cons, List.map_cons, List.cons.injEq] at h
      have part : firstPart a rest = (some ch, (firstPart a rest).2) := Prod.ext h.1 rfl
      have later := ih h.2
      rw [List.flatMap_cons, encode_firstPart part, ← later, List.cons_append,
        List.take_append_drop]

theorem mapM_id_eq_some_iff {parts : List (Option Char)} {cs : List Char} :
    parts.mapM id = some cs ↔ parts = cs.map some := by
  induction parts generalizing cs with
  | nil => cases cs <;> simp
  | cons part parts ih =>
    cases part with
    | none => cases cs <;> simp
    | some c => cases cs <;> simp [Option.bind_eq_some_iff, ih, and_comm]

theorem utf8?_eq_some_iff {bytes : List UInt8} {text : String} :
    utf8? bytes = some text ↔ decodeUtf8 bytes = text.toList.map some := by
  rw [utf8?, Option.map_eq_some_iff]
  constructor
  · intro h
    obtain ⟨cs, read, rfl⟩ := h
    rw [mapM_id_eq_some_iff.1 read, String.toList_ofList]
  · intro h
    exact ⟨text.toList, mapM_id_eq_some_iff.2 h, String.ofList_toList⟩

theorem utf8Bytes_of_utf8? {bytes : List UInt8} {text : String} (h : utf8? bytes = some text) :
    utf8Bytes text = bytes := by
  rw [utf8Bytes_eq, eq_encode_of_decode (utf8?_eq_some_iff.1 h)]

theorem lossyUtf8_of_utf8? {bytes : List UInt8} {text : String} (h : utf8? bytes = some text) :
    lossyUtf8 bytes = text := by
  rw [lossyUtf8, utf8?_eq_some_iff.1 h, List.map_map]
  exact (congrArg String.ofList (List.map_id _)).trans String.ofList_toList

theorem lossyUtf8_inj {a b : List UInt8} (ha : (utf8? a).isSome) (hb : (utf8? b).isSome) :
    lossyUtf8 a = lossyUtf8 b ↔ a = b := by
  obtain ⟨text, ha⟩ := Option.isSome_iff_exists.1 ha
  obtain ⟨text', hb⟩ := Option.isSome_iff_exists.1 hb
  constructor
  · intro same
    rw [lossyUtf8_of_utf8? ha, lossyUtf8_of_utf8? hb] at same
    rw [← utf8Bytes_of_utf8? ha, same, utf8Bytes_of_utf8? hb]
  · exact congrArg lossyUtf8

end PathWatch.Text
