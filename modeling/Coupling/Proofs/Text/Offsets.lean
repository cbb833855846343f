import Coupling.Proofs.Text.Utf8

/-!
# Byte offsets

A text may be cut at an offset into its bytes only where a character starts or
where the text ends. Nothing else is known of an offset at which a search
through the bytes has stopped, unless the search is for characters below 128:
such a character is a single byte, and all bytes of the other characters are 128
or greater. So the search stops where such a character starts, or at the end.
-/

namespace Coupling.Utf8

variable {text : String} {offset : Nat} {c : Char} {byte : UInt8} {before middle rest : List Char}

/-- The bytes of a list of characters. -/
def bytesOf (chars : List Char) : List UInt8 :=
  chars.flatMap String.utf8EncodeChar

theorem encode_eq (text : String) : encode text = bytesOf text.toList := rfl

@[simp]
theorem bytesOf_nil : bytesOf [] = [] := rfl

@[simp]
theorem bytesOf_cons (c : Char) (rest : List Char) :
    bytesOf (c :: rest) = String.utf8EncodeChar c ++ bytesOf rest := rfl

@[simp]
theorem bytesOf_append (front back : List Char) :
    bytesOf (front ++ back) = bytesOf front ++ bytesOf back :=
  List.flatMap_append

theorem bytesOf_eq_nil_iff {chars : List Char} : bytesOf chars = [] ↔ chars = [] := by
  cases chars with
  | nil => simp
  | cons c rest => simp [String.utf8EncodeChar_ne_nil]

/-- The offsets are in order and in the text, and a character starts or the text ends at each. -/
def IsSlice (text : String) (start stop : Nat) : Prop :=
  start ≤ stop ∧ stop ≤ (encode text).length ∧
    String.Pos.Raw.IsValid text ⟨start⟩ ∧ String.Pos.Raw.IsValid text ⟨stop⟩

instance (text : String) (start stop : Nat) : Decidable (IsSlice text start stop) :=
  inferInstanceAs (Decidable (_ ∧ _))

/-- The text between two offsets, or nothing if it cannot be cut there. -/
def slice? (text : String) (start stop : Nat) : Option String :=
  if IsSlice text start stop then decode? (((encode text).drop start).take (stop - start)) else none

/-- The byte at an offset, taken for a character. There is none beyond the text. -/
def byteAt? (text : String) (offset : Nat) : Option Char :=
  ((encode text)[offset]?).map Char.ofUInt8

/-- The offset of the first byte from an offset on that is to be stopped at, or the end of the text.
There is none beyond the text. -/
def find? (text : String) (offset : Nat) (stops : Char → Bool) : Option Nat :=
  if offset ≤ (encode text).length then
    some (offset + ((encode text).drop offset).findIdx fun byte => stops (Char.ofUInt8 byte))
  else none

/-- The offset at which a character first occurs. -/
def offsetOf? (text : String) (c : Char) : Option Nat :=
  if c ∈ text.toList then some (bytesOf (text.toList.takeWhile (· != c))).length else none

theorem byteAt?_of_drop {more : List UInt8} (left : (encode text).drop offset = byte :: more) :
    byteAt? text offset = some (Char.ofUInt8 byte) := by
  have found : (encode text)[offset]? = some byte := by
    simpa using congrArg List.head? left
  simp [byteAt?, found]

theorem lt_length_of_byteAt? (found : byteAt? text offset = some c) :
    offset < (encode text).length := by
  rcases Option.map_eq_some_iff.mp found with ⟨byte, inText, _⟩
  exact (List.getElem?_eq_some_iff.mp inText).1

theorem le_of_find? {stops : Char → Bool} {stop : Nat}
    (found : find? text offset stops = some stop) : offset ≤ stop := by
  unfold find? at found
  split at found
  · simp only [Option.some.injEq] at found
    omega
  · cases found

/-- A search that does not stop at the first byte gets on. -/
theorem lt_of_find? {stops : Char → Bool} {stop : Nat} (here : byteAt? text offset = some c)
    (passes : stops c = false) (found : find? text offset stops = some stop) : offset < stop := by
  rcases Option.map_eq_some_iff.mp here with ⟨byte, inText, same⟩
  rcases List.getElem?_eq_some_iff.mp inText with ⟨inside, byte_eq⟩
  have left : (encode text).drop offset = byte :: (encode text).drop (offset + 1) := by
    rw [List.drop_eq_getElem_cons inside, byte_eq]
  simp [find?, Nat.le_of_lt inside, left, List.findIdx_cons, same, passes] at found
  omega

theorem toNat_ofUInt8 (byte : UInt8) : (Char.ofUInt8 byte).toNat = byte.toNat :=
  UInt8.toNat_toUInt32 byte

theorem utf8EncodeChar_of_ascii (ascii : c.toNat < 128) :
    ∃ byte, String.utf8EncodeChar c = [byte] ∧ Char.ofUInt8 byte = c := by
  have small : c.val.toNat ≤ 127 := Nat.le_of_lt_succ ascii
  refine ⟨UInt8.ofNat c.val.toNat, ?_, ?_⟩
  · simp only [String.utf8EncodeChar, if_pos small]
  · apply Char.toNat_inj.mp
    rw [toNat_ofUInt8, toNat_ofNat_of_lt (by omega)]
    rfl

theorem le_of_mem_utf8EncodeChar (foreign : 128 ≤ c.toNat)
    (byteMem : byte ∈ String.utf8EncodeChar c) : 128 ≤ byte.toNat := by
  have large : ¬c.val.toNat ≤ 127 := Nat.not_le.mpr foreign
  have high : ∀ {value}, 128 ≤ value → value < 256 → byte = UInt8.ofNat value →
      128 ≤ byte.toNat := by
    intro value low fits same
    rw [same, toNat_ofNat_of_lt fits]
    exact low
  unfold String.utf8EncodeChar at byteMem
  simp only [large, if_false] at byteMem
  -- The bytes carry six bits at most below their leading ones.
  split at byteMem
  · simp only [List.mem_cons, List.not_mem_nil, or_false] at byteMem
    rcases byteMem with same | same <;> exact high (by omega) (by omega) same
  split at byteMem
  · simp only [List.mem_cons, List.not_mem_nil, or_false] at byteMem
    rcases byteMem with same | same | same <;> exact high (by omega) (by omega) same
  · simp only [List.mem_cons, List.not_mem_nil, or_false] at byteMem
    rcases byteMem with same | same | same | same <;> exact high (by omega) (by omega) same

/-- Only characters below 128 are stopped at. -/
def AsciiOnly (stops : Char → Bool) : Prop :=
  ∀ c, stops c = true → c.toNat < 128

theorem asciiOnly_eq (ascii : c.toNat < 128) : AsciiOnly (· == c) := by
  intro d same
  rwa [beq_iff_eq.mp same]

/-- A character is stopped at iff its bytes are. -/
theorem AsciiOnly.stops_byte {stops : Char → Bool} (ascii : AsciiOnly stops)
    (byteMem : byte ∈ String.utf8EncodeChar c) : stops (Char.ofUInt8 byte) = stops c := by
  by_cases small : c.toNat < 128
  · rcases utf8EncodeChar_of_ascii small with ⟨only, encoded, same⟩
    rw [encoded, List.mem_singleton] at byteMem
    rw [byteMem, same]
  · have high := le_of_mem_utf8EncodeChar (Nat.not_lt.mp small) byteMem
    have passes : ∀ d : Char, 128 ≤ d.toNat → stops d = false := by
      intro d large
      rw [Bool.eq_false_iff]
      intro stopped
      exact absurd (ascii d stopped) (Nat.not_lt.mpr large)
    rw [passes c (Nat.not_lt.mp small), passes _ (by rw [toNat_ofUInt8]; exact high)]

theorem AsciiOnly.findIdx_bytesOf {stops : Char → Bool} (ascii : AsciiOnly stops)
    (chars : List Char) :
    (bytesOf chars).findIdx (fun byte => stops (Char.ofUInt8 byte)) =
      (bytesOf (chars.takeWhile fun c => !stops c)).length := by
  induction chars with
  | nil => rfl
  | cons c rest ih =>
      rw [bytesOf_cons, List.findIdx_append]
      cases stopped : stops c with
      | true =>
          rcases List.exists_cons_of_ne_nil (String.utf8EncodeChar_ne_nil (c := c)) with
            ⟨byte, bytes, encoded⟩
          have first : stops (Char.ofUInt8 byte) = true := by
            rw [ascii.stops_byte (c := c) (by simp [encoded]), stopped]
          simp [encoded, List.findIdx_cons, first, stopped]
      | false =>
          have passed : (String.utf8EncodeChar c).findIdx (fun byte => stops (Char.ofUInt8 byte)) =
              (String.utf8EncodeChar c).length := by
            rw [List.findIdx_eq_length]
            intro byte byteMem
            rw [ascii.stops_byte byteMem, stopped]
          simp [passed, ih, stopped, Nat.add_comm]

/-- The rest of the text starts at the offset. -/
def Starts (text : String) (offset : Nat) (rest : List Char) : Prop :=
  ∃ before, text.toList = before ++ rest ∧ offset = (bytesOf before).length

theorem starts_zero (text : String) : Starts text 0 text.toList :=
  ⟨[], rfl, rfl⟩

theorem utf8ByteSize_ofList_eq (chars : List Char) :
    (String.ofList chars).utf8ByteSize = (bytesOf chars).length := by
  rw [← String.size_toByteArray, String.toByteArray_ofList]
  simp [List.utf8Encode, bytesOf]

namespace Starts

theorem encode_eq_append (starts : Starts text offset rest) :
    ∃ front, encode text = front ++ bytesOf rest ∧ front.length = offset := by
  rcases starts with ⟨before, split, rfl⟩
  exact ⟨bytesOf before, by simp [encode_eq, split], rfl⟩

theorem drop_encode (starts : Starts text offset rest) :
    (encode text).drop offset = bytesOf rest := by
  rcases starts.encode_eq_append with ⟨front, split, rfl⟩
  simp [split]

theorem length_encode (starts : Starts text offset rest) :
    (encode text).length = offset + (bytesOf rest).length := by
  rcases starts.encode_eq_append with ⟨front, split, rfl⟩
  simp [split]

theorem isValid (starts : Starts text offset rest) : String.Pos.Raw.IsValid text ⟨offset⟩ := by
  rcases starts with ⟨before, split, rfl⟩
  rw [String.Pos.Raw.isValid_iff_exists_append]
  refine ⟨String.ofList before, String.ofList rest, ?_, ?_⟩
  · apply String.toList_injective
    simp [split]
  · apply String.Pos.Raw.ext
    exact (utf8ByteSize_ofList_eq before).symm

theorem skip (starts : Starts text offset (middle ++ rest)) :
    Starts text (offset + (bytesOf middle).length) rest := by
  rcases starts with ⟨before, split, rfl⟩
  exact ⟨before ++ middle, by simp [split], by simp⟩

theorem skip_ascii (starts : Starts text offset (c :: rest)) (ascii : c.toNat < 128) :
    Starts text (offset + 1) rest := by
  rcases utf8EncodeChar_of_ascii ascii with ⟨byte, encoded, _⟩
  have next : Starts text offset ([c] ++ rest) := starts
  simpa [encoded] using next.skip

theorem exists_byteAt? (starts : Starts text offset (c :: rest)) :
    ∃ byte ∈ String.utf8EncodeChar c, byteAt? text offset = some (Char.ofUInt8 byte) := by
  rcases List.exists_cons_of_ne_nil (String.utf8EncodeChar_ne_nil (c := c)) with
    ⟨byte, more, encoded⟩
  have left : (encode text).drop offset = byte :: (more ++ bytesOf rest) := by
    rw [starts.drop_encode, bytesOf_cons, encoded, List.cons_append]
  exact ⟨byte, by simp [encoded], byteAt?_of_drop left⟩

theorem byteAt?_eq_some_iff (starts : Starts text offset rest) (ascii : c.toNat < 128) :
    byteAt? text offset = some c ↔ rest.head? = some c := by
  cases rest with
  | nil => simp [byteAt?, starts.length_encode]
  | cons d rest =>
      rcases starts.exists_byteAt? with ⟨byte, byteMem, found⟩
      have same := (asciiOnly_eq ascii).stops_byte byteMem
      rw [found, List.head?_cons, Option.some.injEq, Option.some.injEq, ← beq_iff_eq, same,
        beq_iff_eq]

/-- A text is cut out between two offsets at which characters start. -/
theorem slice? (starts : Starts text offset (middle ++ rest)) :
    Utf8.slice? text offset (offset + (bytesOf middle).length) = some (String.ofList middle) := by
  have bounds : IsSlice text offset (offset + (bytesOf middle).length) := by
    refine ⟨by omega, ?_, starts.isValid, starts.skip.isValid⟩
    simp [starts.length_encode]
  have cut : ((encode text).drop offset).take (bytesOf middle).length =
      encode (String.ofList middle) := by
    rw [starts.drop_encode]
    simp [encode_eq]
  rw [Utf8.slice?, if_pos bounds, Nat.add_sub_cancel_left, cut, decode?_encode]

-- The letter has two bytes.
example : Utf8.slice? "Größe" 2 4 = some "ö" ∧ Utf8.slice? "Größe" 2 3 = none := by decide +kernel

theorem slice?_to_end (starts : Starts text offset rest) :
    Utf8.slice? text offset (encode text).length = some (String.ofList rest) := by
  rw [← List.append_nil rest] at starts
  simpa [starts.length_encode] using starts.slice?

/-- A search for characters below 128 stops where the first of them starts, or at the end. -/
theorem find? {stops : Char → Bool} (ascii : AsciiOnly stops) (starts : Starts text offset rest) :
    ∃ stop, Utf8.find? text offset stops = some stop ∧
      Starts text stop (rest.dropWhile fun c => !stops c) ∧
      Utf8.slice? text offset stop = some (String.ofList (rest.takeWhile fun c => !stops c)) := by
  have inside : offset ≤ (encode text).length := by
    rw [starts.length_encode]
    omega
  have parted : Starts text offset
      ((rest.takeWhile fun c => !stops c) ++ rest.dropWhile fun c => !stops c) := by
    rwa [List.takeWhile_append_dropWhile]
  refine ⟨_, ?_, parted.skip, parted.slice?⟩
  rw [Utf8.find?, if_pos inside, starts.drop_encode, ascii.findIdx_bytesOf]

end Starts

/-- A text may be cut before and after the first character of a kind that is below 128. -/
theorem exists_offsetOf? (ascii : c.toNat < 128) (charMem : c ∈ text.toList) :
    ∃ before rest offset, text.toList = before ++ c :: rest ∧ c ∉ before ∧
      offsetOf? text c = some offset ∧
      slice? text 0 offset = some (String.ofList before) ∧
      slice? text (offset + 1) (encode text).length = some (String.ofList rest) := by
  rcases List.eq_append_cons_of_mem charMem with ⟨before, rest, split, absent⟩
  have others : ∀ d ∈ before, (d != c) = true := by
    intro d earlier
    rw [bne_iff_ne]
    rintro rfl
    exact absent earlier
  have starts : Starts text 0 (before ++ c :: rest) := by
    rw [← split]
    exact starts_zero text
  have cut := starts.slice?
  have ahead := starts.skip.skip_ascii ascii
  rw [Nat.zero_add] at cut ahead
  refine ⟨before, rest, _, split, absent, ?_, cut, ahead.slice?_to_end⟩
  simp [offsetOf?, split, List.takeWhile_append_of_pos others]

/-- The rest of the text starts at the offset, or after the last bytes of a character that the
offset lies in. -/
def Precedes (text : String) (offset : Nat) (rest : List Char) : Prop :=
  ∃ skipped : List UInt8, Starts text (offset + skipped.length) rest ∧
    (encode text).drop offset = skipped ++ bytesOf rest ∧ ∀ byte ∈ skipped, 128 ≤ byte.toNat

theorem Starts.precedes (starts : Starts text offset rest) : Precedes text offset rest :=
  ⟨[], starts, starts.drop_encode, by simp⟩

/-- Every character may be passed byte by byte. -/
theorem Starts.precedes_next (starts : Starts text offset (c :: rest)) :
    Precedes text (offset + 1) rest := by
  rcases List.exists_cons_of_ne_nil (String.utf8EncodeChar_ne_nil (c := c)) with
    ⟨byte, skipped, encoded⟩
  have single : Starts text offset ([c] ++ rest) := starts
  refine ⟨skipped, ?_, ?_, ?_⟩
  · have passed := single.skip
    rwa [bytesOf_cons, encoded, bytesOf_nil, List.append_nil, List.length_cons, Nat.add_comm _ 1,
      ← Nat.add_assoc] at passed
  · rw [← List.drop_drop, starts.drop_encode, bytesOf_cons, encoded]
    rfl
  · intro other otherMem
    have foreign : 128 ≤ c.toNat := by
      apply Nat.not_lt.mp
      intro ascii
      rcases utf8EncodeChar_of_ascii ascii with ⟨only, single, _⟩
      simp only [encoded, List.cons.injEq] at single
      simp [single.2] at otherMem
    exact le_of_mem_utf8EncodeChar foreign (by simp [encoded, otherMem])

namespace Precedes

/-- The rest starts at the offset, unless a byte of 128 or more stands there. -/
theorem starts_or_foreign (precedes : Precedes text offset rest) :
    Starts text offset rest ∨
      ∃ d, byteAt? text offset = some d ∧ 128 ≤ d.toNat ∧ Precedes text (offset + 1) rest := by
  rcases precedes with ⟨skipped, starts, left, high⟩
  cases skipped with
  | nil => exact .inl starts
  | cons byte skipped =>
      refine .inr ⟨_, byteAt?_of_drop left, ?_, skipped, ?_, ?_, ?_⟩
      · rw [toNat_ofUInt8]
        exact high byte List.mem_cons_self
      · rwa [List.length_cons, Nat.add_comm _ 1, ← Nat.add_assoc] at starts
      · rw [← List.drop_drop, left]
        rfl
      · exact fun other otherMem => high other (List.mem_cons_of_mem _ otherMem)

theorem eq_nil_of_end (precedes : Precedes text offset rest)
    (ended : (encode text).length ≤ offset) : rest = [] := by
  rcases precedes with ⟨skipped, _, left, _⟩
  rw [List.drop_eq_nil_of_le ended] at left
  exact bytesOf_eq_nil_iff.mp (List.append_eq_nil_iff.mp left.symm).2

end Precedes

end Coupling.Utf8
