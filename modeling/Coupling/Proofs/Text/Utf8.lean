import Coupling.Text.Utf8

/-!
# Decoding what was encoded

Decoding undoes encoding, character by character. The first byte of a character
tells how many follow, and the ranges that decoding checks for the second byte
hold because the character is neither short enough for fewer bytes nor a
surrogate nor beyond the last code point.
-/

namespace Coupling.Utf8

variable {lead trail : Nat} {found : List (Option Char)} {rest : List UInt8}

theorem toNat_ofNat_of_lt {n : Nat} (fits : n < 256) : (UInt8.ofNat n).toNat = n := by
  simp
  omega

theorem first_of_ascii (upper : lead < 0x80) :
    first (UInt8.ofNat lead) = .complete (Char.ofNat lead) := by
  have value : (UInt8.ofNat lead).toNat = lead := toNat_ofNat_of_lt (by omega)
  simp only [first, UInt8.lt_iff_toNat_lt, value]
  rw [if_pos (by simpa using upper)]

theorem first_of_two (lower : 0xC2 ≤ lead) (upper : lead < 0xE0) :
    first (UInt8.ofNat lead) = .started ⟨lead % 32, 0, 0x80, 0xBF⟩ := by
  have value : (UInt8.ofNat lead).toNat = lead := toNat_ofNat_of_lt (by omega)
  simp only [first, UInt8.lt_iff_toNat_lt, value]
  rw [if_neg (by simp; omega), if_neg (by simp; omega), if_pos (by simpa using upper)]

theorem first_of_three (lower : 0xE0 ≤ lead) (upper : lead < 0xF0) :
    ∃ least greatest, first (UInt8.ofNat lead) = .started ⟨lead % 16, 1, least, greatest⟩ ∧
      ∀ trail, 0x80 ≤ trail → trail ≤ 0xBF → (lead = 0xE0 → 0xA0 ≤ trail) →
        (lead = 0xED → trail ≤ 0x9F) → least.toNat ≤ trail ∧ trail ≤ greatest.toNat := by
  have value : (UInt8.ofNat lead).toNat = lead := toNat_ofNat_of_lt (by omega)
  simp only [first, UInt8.lt_iff_toNat_lt, ← UInt8.toNat_inj, value]
  rw [if_neg (by simp; omega), if_neg (by simp; omega), if_neg (by simp; omega)]
  split
  · rename_i isE0
    refine ⟨_, _, rfl, fun trail _ _ short _ => ?_⟩
    simpa using ⟨short isE0, by omega⟩
  · split
    · rename_i isED
      refine ⟨_, _, rfl, fun trail _ _ _ surrogate => ?_⟩
      simpa using ⟨by omega, surrogate isED⟩
    · rw [if_pos (by simpa using upper)]
      refine ⟨_, _, rfl, fun trail _ _ _ _ => ?_⟩
      simp
      omega

theorem first_of_four (lower : 0xF0 ≤ lead) (upper : lead ≤ 0xF4) :
    ∃ least greatest, first (UInt8.ofNat lead) = .started ⟨lead % 8, 2, least, greatest⟩ ∧
      ∀ trail, 0x80 ≤ trail → trail ≤ 0xBF → (lead = 0xF0 → 0x90 ≤ trail) →
        (lead = 0xF4 → trail ≤ 0x8F) → least.toNat ≤ trail ∧ trail ≤ greatest.toNat := by
  have value : (UInt8.ofNat lead).toNat = lead := toNat_ofNat_of_lt (by omega)
  simp only [first, UInt8.lt_iff_toNat_lt, ← UInt8.toNat_inj, value]
  rw [if_neg (by simp; omega), if_neg (by simp; omega), if_neg (by simp; omega),
    if_neg (by simp; omega), if_neg (by simp; omega), if_neg (by simp; omega)]
  split
  · rename_i isF0
    refine ⟨_, _, rfl, fun trail _ _ short _ => ?_⟩
    simpa using ⟨short isF0, by omega⟩
  · split
    · refine ⟨_, _, rfl, fun trail _ _ _ _ => ?_⟩
      simp
      omega
    · rename_i notF0 notBelow
      have isF4 : lead = 0xF4 := by
        simp at notF0 notBelow
        omega
      rw [if_pos (by simpa using isF4)]
      refine ⟨_, _, rfl, fun trail _ _ _ beyond => ?_⟩
      simpa using ⟨by omega, beyond isF4⟩

section Scan

variable {byte : UInt8} {pending next : Partial} {c : Char}

theorem scan_first_complete (isFirst : first byte = .complete c) :
    scan found none (byte :: rest) = scan (some c :: found) none rest := by
  simp [scan, isFirst]

theorem scan_first_started (isFirst : first byte = .started next) :
    scan found none (byte :: rest) = scan found (some next) rest := by
  simp [scan, isFirst]

theorem scan_next_complete (isNext : next? pending byte = some (.complete c)) :
    scan found (some pending) (byte :: rest) = scan (some c :: found) none rest := by
  simp [scan, isNext]

theorem scan_next_started (isNext : next? pending byte = some (.started next)) :
    scan found (some pending) (byte :: rest) = scan found (some next) rest := by
  simp [scan, isNext]

end Scan

/-- A byte in the allowed range adds its six bits. -/
theorem next?_of_range {least greatest : UInt8} (bits owed : Nat) (fits : trail < 64)
    (range : least.toNat ≤ trail + 128 ∧ trail + 128 ≤ greatest.toNat) :
    next? ⟨bits, owed + 1, least, greatest⟩ (UInt8.ofNat (trail + 128)) =
      some (.started ⟨bits * 64 + trail, owed, 0x80, 0xBF⟩) := by
  have value : (UInt8.ofNat (trail + 128)).toNat = trail + 128 := toNat_ofNat_of_lt (by omega)
  have low : (trail + 128) % 64 = trail := by omega
  simp only [next?, UInt8.le_iff_toNat_le, value, low]
  rw [if_pos range]

theorem next?_last (bits : Nat) (fits : trail < 64) :
    next? ⟨bits, 0, 0x80, 0xBF⟩ (UInt8.ofNat (trail + 128)) =
      some (.complete (Char.ofNat (bits * 64 + trail))) := by
  have value : (UInt8.ofNat (trail + 128)).toNat = trail + 128 := toNat_ofNat_of_lt (by omega)
  have low : (trail + 128) % 64 = trail := by omega
  simp only [next?, UInt8.le_iff_toNat_le, value, low]
  rw [if_pos (by simp; omega)]

theorem scan_encodeChar (c : Char) :
    scan found none (String.utf8EncodeChar c ++ rest) = scan (some c :: found) none rest := by
  have valid : c.val.toNat < 0xD800 ∨ 0xDFFF < c.val.toNat ∧ c.val.toNat < 0x110000 := c.valid
  have same : Char.ofNat c.val.toNat = c := Char.ofNat_toNat c
  unfold String.utf8EncodeChar
  generalize c.val.toNat = value at valid same
  -- The four cases are the lengths of the encoding; `whole` puts the bits together again.
  simp only
  split
  · rw [List.singleton_append, scan_first_complete (first_of_ascii (by omega)), same]
  · split
    · have whole : (value / 64 % 32 + 192) % 32 * 64 + value % 64 = value := by omega
      rw [List.cons_append, List.singleton_append,
        scan_first_started (first_of_two (by omega) (by omega)),
        scan_next_complete (next?_last _ (by omega)), whole, same]
    · split
      · have whole : ((value / 4096 % 16 + 224) % 16 * 64 + value / 64 % 64) * 64 + value % 64 =
            value := by omega
        rcases first_of_three (show 0xE0 ≤ value / 4096 % 16 + 224 by omega) (by omega) with
          ⟨least, greatest, isFirst, range⟩
        have second := range (value / 64 % 64 + 128) (by omega) (by omega) (by omega) (by omega)
        rw [List.cons_append, List.cons_append, List.singleton_append, scan_first_started isFirst,
          scan_next_started (next?_of_range _ _ (by omega) second),
          scan_next_complete (next?_last _ (by omega)), whole, same]
      · have whole : (((value / 262144 % 8 + 240) % 8 * 64 + value / 4096 % 64) * 64 +
            value / 64 % 64) * 64 + value % 64 = value := by omega
        rcases first_of_four (show 0xF0 ≤ value / 262144 % 8 + 240 by omega) (by omega) with
          ⟨least, greatest, isFirst, range⟩
        have second := range (value / 4096 % 64 + 128) (by omega) (by omega) (by omega) (by omega)
        rw [List.cons_append, List.cons_append, List.cons_append, List.singleton_append,
          scan_first_started isFirst, scan_next_started (next?_of_range _ _ (by omega) second),
          scan_next_started (next?_of_range _ _ (by omega) (by simp; omega)),
          scan_next_complete (next?_last _ (by omega)), whole, same]

theorem scan_encode (chars : List Char) (found : List (Option Char)) :
    scan found none (chars.flatMap String.utf8EncodeChar) = found.reverse ++ chars.map some := by
  induction chars generalizing found with
  | nil => simp [scan]
  | cons c chars ih => rw [List.flatMap_cons, scan_encodeChar, ih]; simp

/-- Decoding an encoded text gives the text back. -/
theorem decode?_encode (text : String) : decode? (encode text) = some text := by
  have each : ∀ chars : List Char, (chars.map some).mapM id = some chars := by
    intro chars
    induction chars with
    | nil => rfl
    | cons c chars ih => simp [ih]
  rw [decode?, encode, scan_encode, List.reverse_nil, List.nil_append, each]
  simp

theorem decodeLossy_encode (text : String) : decodeLossy (encode text) = text := by
  rw [decodeLossy, encode, scan_encode, List.reverse_nil, List.nil_append, List.map_map]
  exact (congrArg String.ofList (List.map_id _)).trans String.ofList_toList

end Coupling.Utf8
