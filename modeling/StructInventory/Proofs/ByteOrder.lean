import Mathlib.Data.String.Basic

/-!
The order of texts by their bytes. A character takes one byte to four, of which all but the first
are digits to the base 64, so that a greater character never has the lesser bytes. Texts are thus in
the same order by their characters and by their bytes.
-/

namespace StructInventory.Text

/-- The bytes of a text in UTF-8. -/
def bytes (text : String) : List UInt8 := text.toUTF8.data.toList

theorem bytes_eq (text : String) : bytes text = text.toList.flatMap String.utf8EncodeChar := by
  have spelled : (String.ofList text.toList).toByteArray = text.toList.utf8Encode :=
    String.toByteArray_ofList
  rw [String.ofList_toList] at spelled
  simp [bytes, String.toUTF8, spelled, List.utf8Encode]

theorem byte_lt {code code' : Nat} (less : code < code') (small : code' < 256)
    (after after' : List UInt8) : UInt8.ofNat code :: after < UInt8.ofNat code' :: after' := by
  apply List.cons_lt_cons_iff.mpr
  exact .inl ((UInt8.ofNat_lt_iff_lt (Nat.lt_trans less small) small).mpr less)

/-- The bytes of lesser numbers, up to a bound, come before those of greater ones, whatever
follows. -/
def KeepsOrder (encode : Nat → List UInt8) (bound : Nat) : Prop :=
  ∀ code code', code < code' → code' < bound →
    ∀ after after', encode code ++ after < encode code' ++ after'

/-- A first byte that is marked by a constant. -/
theorem keepsOrder_lead (mark bound : Nat) (small : mark + bound ≤ 256) :
    KeepsOrder (fun code => [UInt8.ofNat (code % bound + mark)]) bound := by
  intro code code' less below after after'
  simp only [Nat.mod_eq_of_lt below, Nat.mod_eq_of_lt (Nat.lt_trans less below)]
  exact byte_lt (by omega) (by omega) after after'

/-- One more byte, for the last digit to the base 64. -/
theorem KeepsOrder.digit {encode : Nat → List UInt8} {bound : Nat}
    (keeps : KeepsOrder encode bound) :
    KeepsOrder (fun code => encode (code / 64) ++ [UInt8.ofNat (code % 64 + 128)])
      (bound * 64) := by
  intro code code' less below after after'
  simp only [List.append_assoc]
  by_cases same : code / 64 = code' / 64
  · rw [same]
    exact List.append_left_lt (byte_lt (by omega) (by omega) after after')
  · exact keeps _ _ (by omega) (by omega) _ _

theorem utf8EncodeChar_lt {c c' : Char} (less : c < c') (after after' : List UInt8) :
    String.utf8EncodeChar c ++ after < String.utf8EncodeChar c' ++ after' := by
  have codes : c.val.toNat < c'.val.toNat := UInt32.lt_iff_toNat_lt.mp less
  have bound : c'.val.toNat < 0x110000 := by
    rcases c'.valid with low | ⟨_, high⟩ <;> omega
  have two := (keepsOrder_lead 192 32 (by decide)).digit
  have three := (keepsOrder_lead 224 16 (by decide)).digit.digit
  have four := (keepsOrder_lead 240 8 (by decide)).digit.digit.digit
  simp only [KeepsOrder, List.cons_append, List.nil_append, Nat.div_div_eq_div_mul,
    Nat.reduceMul] at two three four
  unfold String.utf8EncodeChar
  generalize c.val.toNat = code at codes
  generalize c'.val.toNat = code' at codes bound
  simp only
  -- With more bytes the first one is greater; with as many, the digits decide.
  split_ifs
  · exact byte_lt codes (by omega) _ _
  · exact byte_lt (by omega) (by omega) _ _
  · exact byte_lt (by omega) (by omega) _ _
  · exact byte_lt (by omega) (by omega) _ _
  · omega
  · exact two _ _ codes (by omega) _ _
  · exact byte_lt (by omega) (by omega) _ _
  · exact byte_lt (by omega) (by omega) _ _
  · omega
  · omega
  · exact three _ _ codes (by omega) _ _
  · exact byte_lt (by omega) (by omega) _ _
  · omega
  · omega
  · omega
  · exact four _ _ codes (by omega) _ _

theorem bytes_lt {text text' : String} (less : text < text') : bytes text < bytes text' := by
  have spelled : List.Lex (fun c c' => c < c') text.toList text'.toList := String.lt_iff.mp less
  rw [bytes_eq, bytes_eq]
  generalize text.toList = chars at spelled
  generalize text'.toList = chars' at spelled
  induction spelled with
  | @nil c rest =>
    obtain ⟨byte, more, encoded⟩ :=
      List.exists_cons_of_ne_nil (String.utf8EncodeChar_ne_nil (c := c))
    simp [encoded]
  | rel first => exact utf8EncodeChar_lt first _ _
  | cons _ ih => exact List.append_left_lt ih

end StructInventory.Text
