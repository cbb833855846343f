import Coupling.Proofs.Text.Utf8

/-!
# The order of encoded text

Texts are ordered as the bytes that encode them. Of two characters the greater
one has the greater byte where their encodings first differ, so what follows the
characters has no say.
-/

namespace Coupling.Utf8

variable {first second : Nat} {rest others : List UInt8}

theorem byte_cons_lt (fits : second < 256) (less : first < second) :
    UInt8.ofNat first :: rest < UInt8.ofNat second :: others := by
  rw [List.cons_lt_cons_iff, UInt8.lt_iff_toNat_lt, toNat_ofNat_of_lt fits,
    toNat_ofNat_of_lt (by omega)]
  exact .inl less

theorem byte_cons_lt_of_le (fits : second < 256) (least : first ≤ second)
    (less : first = second → rest < others) :
    UInt8.ofNat first :: rest < UInt8.ofNat second :: others := by
  rcases Nat.lt_or_eq_of_le least with below | same
  · exact byte_cons_lt fits below
  · rw [same]
    exact List.cons_lt_cons_iff.mpr (.inr ⟨rfl, less same⟩)

theorem utf8EncodeChar_append_lt {c d : Char} (less : c < d) :
    String.utf8EncodeChar c ++ rest < String.utf8EncodeChar d ++ others := by
  have less : c.val.toNat < d.val.toNat := less
  have valid : d.val.toNat < 0xD800 ∨ 0xDFFF < d.val.toNat ∧ d.val.toNat < 0x110000 := d.valid
  unfold String.utf8EncodeChar
  generalize c.val.toNat = lower at less
  generalize d.val.toNat = upper at less valid
  simp only
  -- A longer encoding starts with a greater byte. Where the lengths agree, so do the bytes up to
  -- the first digit that differs.
  split
  · split
    · exact byte_cons_lt (by omega) less
    split
    · exact byte_cons_lt (by omega) (by omega)
    split
    · exact byte_cons_lt (by omega) (by omega)
    · exact byte_cons_lt (by omega) (by omega)
  split
  · rw [if_neg (by omega)]
    split
    · refine byte_cons_lt_of_le (by omega) (by omega) fun same => ?_
      exact byte_cons_lt (by omega) (by omega)
    split
    · exact byte_cons_lt (by omega) (by omega)
    · exact byte_cons_lt (by omega) (by omega)
  split
  · rw [if_neg (by omega), if_neg (by omega)]
    split
    · refine byte_cons_lt_of_le (by omega) (by omega) fun same => ?_
      refine byte_cons_lt_of_le (by omega) (by omega) fun next => ?_
      exact byte_cons_lt (by omega) (by omega)
    · exact byte_cons_lt (by omega) (by omega)
  · rw [if_neg (by omega), if_neg (by omega), if_neg (by omega)]
    refine byte_cons_lt_of_le (by omega) (by omega) fun same => ?_
    refine byte_cons_lt_of_le (by omega) (by omega) fun next => ?_
    refine byte_cons_lt_of_le (by omega) (by omega) fun last => ?_
    exact byte_cons_lt (by omega) (by omega)

theorem flatMap_utf8EncodeChar_lt {left right : List Char} (less : left < right) :
    left.flatMap String.utf8EncodeChar < right.flatMap String.utf8EncodeChar := by
  induction less with
  | @nil c chars =>
      rcases List.exists_cons_of_ne_nil (String.utf8EncodeChar_ne_nil (c := c)) with
        ⟨byte, bytes, encoded⟩
      rw [List.flatMap_nil, List.flatMap_cons, encoded, List.cons_append]
      exact List.nil_lt_cons byte _
  | cons _ ih =>
      rw [List.flatMap_cons, List.flatMap_cons]
      exact List.append_left_lt ih
  | rel smaller =>
      rw [List.flatMap_cons, List.flatMap_cons]
      exact utf8EncodeChar_append_lt smaller

/-- Texts are ordered as their bytes. -/
theorem encode_lt_iff {left right : String} : encode left < encode right ↔ left < right := by
  constructor
  · intro less
    apply Decidable.byContradiction
    intro notLess
    by_cases greater : right < left
    · exact List.lt_asymm less (flatMap_utf8EncodeChar_lt greater)
    · have same : left = right :=
        String.le_antisymm (String.not_lt.mp greater) (String.not_lt.mp notLess)
      exact List.lt_irrefl _ (same ▸ less)
  · exact flatMap_utf8EncodeChar_lt

end Coupling.Utf8
