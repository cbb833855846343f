import Coupling.Proofs.Text.Utf8

/-!
# Modified UTF-8 read as UTF-8

Class files store texts in a form of UTF-8 of their own. It encodes the code
units of sixteen bits that a text consists of, so a character beyond the basic
plane is stored as two surrogates of three bytes each, and NUL takes two bytes.

All other characters are stored as in UTF-8, and reading them as UTF-8 gives
them back. A surrogate is nothing that UTF-8 can hold: its first byte announces
a character that the second byte cannot continue, and neither of the bytes after
the first can start one. So each of its three bytes is a fault of its own.
-/

namespace Coupling.ModifiedUtf8

/-- The code units of a character. -/
def unitsOf (c : Char) : List Nat :=
  if c.toNat < 0x10000 then [c.toNat]
  else [0xD800 + (c.toNat - 0x10000) / 1024, 0xDC00 + (c.toNat - 0x10000) % 1024]

/-- The bytes of a code unit. -/
def encodeUnit (unit : Nat) : List UInt8 :=
  if 0 < unit ∧ unit < 0x80 then [UInt8.ofNat unit]
  else if unit < 0x800 then [UInt8.ofNat (unit / 64 % 32 + 192), UInt8.ofNat (unit % 64 + 128)]
  else
    [UInt8.ofNat (unit / 4096 % 16 + 224), UInt8.ofNat (unit / 64 % 64 + 128),
      UInt8.ofNat (unit % 64 + 128)]

def encodeChar (c : Char) : List UInt8 :=
  (unitsOf c).flatMap encodeUnit

/-- The bytes that a text is stored as. -/
def encode (text : String) : List UInt8 :=
  text.toList.flatMap encodeChar

/-- The character is stored as in UTF-8: it is not NUL and lies in the basic plane. -/
def IsPlain (c : Char) : Prop :=
  0 < c.toNat ∧ c.toNat < 0x10000

instance : DecidablePred IsPlain :=
  fun _ => inferInstanceAs (Decidable (_ ∧ _))

/-- What reading UTF-8 makes of a stored character. -/
def reread (c : Char) : List (Option Char) :=
  if IsPlain c then [some c]
  else if c.toNat = 0 then List.replicate 2 none
  else List.replicate 6 none

/-- What becomes of a text that is stored and then read as UTF-8. -/
def survivors (text : List Char) : List Char :=
  (text.flatMap reread).map (·.getD '�')

theorem encodeChar_of_isPlain {c : Char} (plain : IsPlain c) :
    encodeChar c = String.utf8EncodeChar c := by
  obtain ⟨positive, basic⟩ := plain
  have same : c.val.toNat = c.toNat := rfl
  simp only [encodeChar, unitsOf, if_pos basic, List.flatMap_singleton, encodeUnit,
    String.utf8EncodeChar, same]
  split
  · next ascii => rw [if_pos (by omega)]
  · next notAscii =>
      rw [if_neg (show ¬c.toNat ≤ 0x7F by omega)]
      split
      · next two => rw [if_pos (by omega)]
      · next three => rw [if_neg (by omega), if_pos (by omega)]

section Faults

open Utf8 (Partial first next? scan)

variable {found : List (Option Char)} {rest : List UInt8} {lead : Nat}

/-- No character starts with a byte that only continues one, nor with one that no character
needs. -/
theorem first_of_fault (lower : 0x80 ≤ lead) (upper : lead < 0xC2) :
    first (UInt8.ofNat lead) = .fault := by
  have value : (UInt8.ofNat lead).toNat = lead := Utf8.toNat_ofNat_of_lt (by omega)
  simp only [first, UInt8.lt_iff_toNat_lt, value]
  rw [if_neg (by simp; omega), if_pos (by simpa using upper)]

theorem scan_first_fault (lower : 0x80 ≤ lead) (upper : lead < 0xC2) :
    scan found none (UInt8.ofNat lead :: rest) = scan (none :: found) none rest := by
  simp [scan, first_of_fault lower upper]

/-- A byte that cannot continue a character and cannot start one makes two faults. -/
theorem scan_next_fault {pending : Partial} (beyond : next? pending (UInt8.ofNat lead) = none)
    (lower : 0x80 ≤ lead) (upper : lead < 0xC2) :
    scan found (some pending) (UInt8.ofNat lead :: rest) =
      scan (none :: none :: found) none rest := by
  simp [scan, beyond, first_of_fault lower upper]

theorem scan_nul :
    scan found none (encodeUnit 0 ++ rest) = scan (none :: none :: found) none rest := by
  have bytes : encodeUnit 0 = [UInt8.ofNat 0xC0, UInt8.ofNat 0x80] := rfl
  rw [bytes, List.cons_append, List.singleton_append,
    scan_first_fault (by decide) (by decide), scan_first_fault (by decide) (by decide)]

theorem scan_surrogate {unit : Nat} (lower : 0xD800 ≤ unit) (upper : unit < 0xE000) :
    scan found none (encodeUnit unit ++ rest) =
      scan (none :: none :: none :: found) none rest := by
  have lead : unit / 4096 % 16 + 224 = 0xED := by omega
  have started : first (UInt8.ofNat 0xED) = .started ⟨0xD, 1, 0x80, 0x9F⟩ := rfl
  have beyond : next? ⟨0xD, 1, 0x80, 0x9F⟩ (UInt8.ofNat (unit / 64 % 64 + 128)) = none := by
    rw [next?, if_neg]
    simp [UInt8.le_iff_toNat_le]
    omega
  rw [encodeUnit, if_neg (by omega), if_neg (by omega), lead, List.cons_append, List.cons_append,
    List.singleton_append, Utf8.scan_first_started started,
    scan_next_fault beyond (by omega) (by omega), scan_first_fault (by omega) (by omega)]

end Faults

theorem scan_encodeChar (c : Char) (found : List (Option Char)) (rest : List UInt8) :
    Utf8.scan found none (encodeChar c ++ rest) =
      Utf8.scan ((reread c).reverse ++ found) none rest := by
  by_cases plain : IsPlain c
  · rw [encodeChar_of_isPlain plain, Utf8.scan_encodeChar, reread, if_pos plain]
    rfl
  · rw [reread, if_neg plain]
    by_cases nul : c.toNat = 0
    · rw [if_pos nul, encodeChar, unitsOf, if_pos (by omega), nul, List.flatMap_singleton, scan_nul]
      rfl
    · have supplementary : 0x10000 ≤ c.toNat := by
        rw [IsPlain] at plain
        omega
      have valid : c.toNat < 0xD800 ∨ 0xDFFF < c.toNat ∧ c.toNat < 0x110000 := c.valid
      rw [if_neg nul, encodeChar, unitsOf, if_neg (by omega), List.flatMap_cons,
        List.flatMap_singleton, List.append_assoc, scan_surrogate (by omega) (by omega),
        scan_surrogate (by omega) (by omega)]
      rfl

theorem scan_encode (text : List Char) (found : List (Option Char)) :
    Utf8.scan found none (text.flatMap encodeChar) = found.reverse ++ text.flatMap reread := by
  induction text generalizing found with
  | nil => simp [Utf8.scan]
  | cons c text ih =>
      rw [List.flatMap_cons, scan_encodeChar, ih]
      simp

/-- Reading a stored text as UTF-8 gives its characters back, apart from those that are not stored
as in UTF-8. -/
theorem toList_decodeLossy_encode (text : String) :
    (Utf8.decodeLossy (encode text)).toList = survivors text.toList := by
  rw [Utf8.decodeLossy, encode, scan_encode, String.toList_ofList, survivors]
  rfl

theorem survivors_of_isPlain {text : List Char} (plain : ∀ c ∈ text, IsPlain c) :
    survivors text = text := by
  induction text with
  | nil => rfl
  | cons c text ih =>
      rw [List.forall_mem_cons] at plain
      rw [survivors, List.flatMap_cons, reread, if_pos plain.1, List.map_append]
      exact congrArg (c :: ·) (ih plain.2)

end Coupling.ModifiedUtf8
