import Mathlib.Data.String.Basic

/-!
# Byte order — texts compare as their bytes do

Names are compared character by character, and an order of names is meant byte by byte. In UTF-8
the two are one order: of two characters the lesser has the lesser bytes, and **its bytes are no
front of the other's** (`encoded_lt_append`), so the first character that differs decides the
bytes as well, whatever follows.
-/

set_option autoImplicit false

namespace ServiceHost.Text

/-- The bytes of a text in UTF-8. -/
def bytes (text : String) : List UInt8 :=
  text.toUTF8.data.toList

theorem bytes_eq_flatMap (text : String) : bytes text = text.toList.flatMap String.utf8EncodeChar := by
  unfold bytes
  rw [String.toUTF8_eq_toByteArray, ← String.utf8Encode_toList]
  unfold List.utf8Encode
  simp

/-- **The lesser of two characters has the lesser bytes**, whatever follows either of them. -/
theorem encoded_lt_append {c d : Char} (h : c < d) (after behind : List UInt8) :
    String.utf8EncodeChar c ++ after < String.utf8EncodeChar d ++ behind := by
  have hlt : c.val.toNat < d.val.toNat := h
  have hmax : d.val.toNat < 0x110000 := by
    rcases d.valid with hd | ⟨_, hd⟩
    · exact Nat.lt_trans hd (by decide)
    · exact hd
  unfold String.utf8EncodeChar
  dsimp only
  generalize c.val.toNat = low at hlt
  generalize d.val.toNat = high at hlt hmax
  -- Each further byte is one more digit to base 64.
  have digit : ∀ n : Nat, n / 4096 = n / 64 / 64 ∧ n / 262144 = n / 64 / 64 / 64 := by
    intro n
    simp only [Nat.div_div_eq_div_mul, and_self]
  simp only [digit]
  -- One case for the number of bytes of each; all that is left is arithmetic on the digits.
  split_ifs <;>
    simp only [List.cons_append, List.nil_append, List.cons_lt_cons_iff, UInt8.lt_iff_toNat_lt,
      ← UInt8.toNat_inj, UInt8.toNat_ofNat'] <;>
    omega

theorem flatMap_encoded_lt {cs ds : List Char} (h : cs < ds) :
    cs.flatMap String.utf8EncodeChar < ds.flatMap String.utf8EncodeChar := by
  induction cs generalizing ds with
  | nil =>
    cases ds with
    | nil => exact absurd h (List.lt_irrefl _)
    | cons d ds =>
      rw [List.flatMap_cons, List.flatMap_nil]
      cases he : String.utf8EncodeChar d with
      | nil => exact absurd he String.utf8EncodeChar_ne_nil
      | cons byte bytes => exact List.nil_lt_cons _ _
  | cons c cs ih =>
    cases ds with
    | nil => exact absurd h (List.not_lt_nil _)
    | cons d ds =>
      rcases List.cons_lt_cons_iff.mp h with hcd | ⟨rfl, hrest⟩
      · exact encoded_lt_append hcd _ _
      · exact List.append_left_lt (ih hrest)

/-- **The order of bytes is the order of texts.** -/
theorem bytes_lt_iff {text other : String} : bytes text < bytes other ↔ text < other := by
  rw [bytes_eq_flatMap, bytes_eq_flatMap]
  constructor
  · intro h
    rcases lt_trichotomy text other with hlt | rfl | hgt
    · exact hlt
    · exact absurd h (List.lt_irrefl _)
    · exact absurd (flatMap_encoded_lt (String.lt_iff_toList_lt.mp hgt)) (List.lt_asymm h)
  · intro h
    exact flatMap_encoded_lt (String.lt_iff_toList_lt.mp h)

end ServiceHost.Text
