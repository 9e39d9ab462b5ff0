import ServiceHost.Json.Reader
import Mathlib.Data.List.Basic

/-!
# Written lexemes — strings and integers are read back

A string is read back character by character: **whatever an escape stands for, the next read gives
that one character** (`readStringChar_escapeChar`), so a string needs nothing of what follows it. An
integer is its longest run of digits, and it is only read back if what follows does not go on with
it (`Ends`). Its digits fit the significand as long as 64 bits hold the integer.
-/

set_option autoImplicit false

namespace ServiceHost.Json

/-! ## Strings -/

theorem hexValue?_hexDigit : ∀ n < 16, hexValue? (hexDigit n) = some n := by
  decide

theorem readUnicodeEscape_of_lt {cs rest : List Char} {unit : Nat}
    (h : readHex4 cs = .ok (unit, rest)) (hunit : unit < 0xd800) :
    readUnicodeEscape cs = .ok (Char.ofNat unit, rest) := by
  rw [readUnicodeEscape, h]
  dsimp only
  rw [if_neg (by omega), if_pos (Or.inl hunit)]

/-- A control without an escape of its own is spelled by its code point. -/
theorem readEscape_control {c : Char} (hc : c.toNat < 0x20) (rest : List Char) :
    readEscape ('u' :: '0' :: '0' :: hexDigit (c.toNat / 16) :: hexDigit (c.toNat % 16) :: rest) =
      .ok (c, rest) := by
  have hhex : readHex4 ('0' :: '0' :: hexDigit (c.toNat / 16) :: hexDigit (c.toNat % 16) :: rest) =
      .ok (c.toNat, rest) := by
    have hzero : hexValue? '0' = some 0 := by decide
    rw [readHex4, hzero, hexValue?_hexDigit _ (by omega), hexValue?_hexDigit _ (by omega)]
    dsimp only
    rw [show ((0 * 16 + 0) * 16 + c.toNat / 16) * 16 + c.toNat % 16 = c.toNat by omega]
  have hread := readUnicodeEscape_of_lt hhex (by omega)
  rw [Char.ofNat_toNat] at hread
  exact hread

/-- A character is written as an escape that stands for it, or as it is. -/
theorem escapeChar_cases (c : Char) :
    (∃ spelled, escapeChar c = '\\' :: spelled ∧
      ∀ rest, readEscape (spelled ++ rest) = .ok (c, rest)) ∨
    (escapeChar c = [c] ∧ c ≠ '"' ∧ c ≠ '\\' ∧ ¬ c.toNat < 0x20) := by
  unfold escapeChar
  -- The seven characters that have an escape of their own.
  iterate 7
    split
    · rename_i h
      exact .inl ⟨_, rfl, fun rest => by subst h; rfl⟩
  split
  · rename_i hcontrol
    exact .inl ⟨_, rfl, readEscape_control hcontrol⟩
  · exact .inr ⟨rfl, by assumption, by assumption, by assumption⟩

/-- The next character of a written string is the one that was written. -/
theorem readStringChar_escapeChar (c : Char) (rest : List Char) :
    readStringChar (escapeChar c ++ rest) = .ok (some c, rest) := by
  rcases escapeChar_cases c with ⟨spelled, heq, hread⟩ | ⟨heq, hquote, hbackslash, hcontrol⟩
  · rw [heq, List.cons_append, readStringChar, if_neg (by decide), if_pos rfl, hread]
    rfl
  · rw [heq, List.singleton_append, readStringChar, if_neg hquote, if_neg hbackslash,
      if_neg hcontrol]

theorem readStringBody_cons {cs rest others : List Char} {c : Char} {text : List Char}
    (hchar : readStringChar cs = .ok (some c, rest))
    (hbody : readStringBody rest = .ok (text, others)) :
    readStringBody cs = .ok (c :: text, others) := by
  rw [readStringBody]
  split
  · rename_i h
    rw [hchar] at h
    cases h
  · rename_i h
    rw [hchar] at h
    cases h
  · rename_i h
    rw [hchar] at h
    cases h
    dsimp only
    rw [hbody]

theorem readStringBody_written (text rest : List Char) :
    readStringBody (text.flatMap escapeChar ++ '"' :: rest) = .ok (text, rest) := by
  induction text with
  | nil =>
    rw [readStringBody]
    rfl
  | cons c others ih =>
    rw [List.flatMap_cons, List.append_assoc]
    exact readStringBody_cons (readStringChar_escapeChar c _) ih

theorem stringText_append (text : String) (rest : List Char) :
    stringText text ++ rest = '"' :: (text.toList.flatMap escapeChar ++ '"' :: rest) := by
  simp [stringText]

/-- A string is read back, whatever follows it. -/
theorem readStringRest_written (text : String) (rest : List Char) :
    readStringRest (text.toList.flatMap escapeChar ++ '"' :: rest) = .ok (text, rest) := by
  rw [readStringRest, readStringBody_written]
  simp [Except.map]

/-! ## Integers -/

/-- No number goes on with this text. -/
def Ends (rest : List Char) : Prop :=
  ∀ c ∈ rest.head?, c.isDigit = false ∧ c ≠ '.' ∧ c ≠ 'e' ∧ c ≠ 'E'

theorem ends_nil : Ends [] := by
  simp [Ends]

theorem takeDigits_append {digits rest : List Char} (hdigits : ∀ c ∈ digits, c.isDigit = true)
    (hrest : Ends rest) : Decimal.takeDigits (digits ++ rest) = (digits, rest) := by
  have hstop : rest.takeWhile Char.isDigit = [] ∧ rest.dropWhile Char.isDigit = rest := by
    cases rest with
    | nil => exact ⟨rfl, rfl⟩
    | cons c others => simp [(hrest c rfl).1]
  rw [Decimal.takeDigits, List.takeWhile_append_of_pos hdigits, List.dropWhile_append_of_pos hdigits,
    hstop.1, hstop.2, List.append_nil]

theorem le_ofDigitChars (start : Nat) (digits : List Char) :
    start ≤ Nat.ofDigitChars 10 digits start := by
  rw [Nat.ofDigitChars_eq_ofDigitChars_zero]
  have hpos : 0 < 10 ^ digits.length := Nat.pow_pos (by decide)
  have hle := Nat.le_mul_of_pos_left start hpos
  omega

/-- Digits that fit are all gathered. -/
theorem gather_eq {start : Nat} {digits : List Char}
    (h : Nat.ofDigitChars 10 digits start ≤ significandLimit) :
    gather start digits = (Nat.ofDigitChars 10 digits start, []) := by
  induction digits generalizing start with
  | nil => simp [gather]
  | cons c rest ih =>
    rw [Nat.ofDigitChars_cons, Nat.mul_comm] at h ⊢
    have hnext := le_ofDigitChars (start * 10 + (c.toNat - '0'.toNat)) rest
    rw [gather, if_neg (by omega)]
    exact ih h

theorem isDigit_of_mem_toDigits {n : Nat} : ∀ c ∈ Nat.toDigits 10 n, c.isDigit = true :=
  fun _ => Nat.isDigit_of_mem_toDigits (by decide) (by decide)

/-- Only zero is spelled with a zero in front. -/
theorem exists_toDigits_eq_cons {n : Nat} (hn : 0 < n) :
    ∃ c rest, Nat.toDigits 10 n = c :: rest ∧ c ≠ '0' := by
  induction n using Nat.base_induction 10 (by decide) with
  | single m hm =>
    rw [Nat.toDigits_of_lt_base hm]
    have hdigit : ∀ m < 10, 0 < m → m.digitChar ≠ '0' := by decide
    exact ⟨m.digitChar, [], rfl, hdigit m hm hn⟩
  | digit m k hk hm ih =>
    obtain ⟨c, rest, heq, hc⟩ := ih hm
    rw [← Nat.toDigits_append_toDigits (by decide) hm hk, heq]
    exact ⟨c, _, rfl, hc⟩

theorem toDigits_zero_or_length {n : Nat} {first : Char} {others : List Char}
    (h : Nat.toDigits 10 n = first :: others) : ¬ (first = '0' ∧ (first :: others).length ≠ 1) := by
  rintro ⟨rfl, hlength⟩
  rcases Nat.eq_zero_or_pos n with rfl | hpos
  · rw [Nat.toDigits_zero] at h
    cases h
    exact hlength rfl
  · obtain ⟨c, rest, heq, hc⟩ := exists_toDigits_eq_cons hpos
    rw [h] at heq
    cases heq
    exact hc rfl

/-- The digits of an integer are the integer, with a sign if one was read. -/
theorem readUnsigned_toDigits {n : Nat} {rest : List Char} (hn : n ≤ significandLimit)
    (hrest : Ends rest) (negative : Bool) :
    readUnsigned negative (Nat.toDigits 10 n ++ rest) =
      if !negative then .ok (.integer n, rest)
      else if n = 0 ∨ Nat.pow 2 63 < n then .ok (.real ((Binary64.ofRatio false n 1).neg), rest)
      else .ok (.integer (-n), rest) := by
  have htake := takeDigits_append (isDigit_of_mem_toDigits (n := n)) hrest
  have hgather : gather 0 (Nat.toDigits 10 n) = (n, []) := by
    rw [gather_eq (by rwa [Nat.ofDigitChars_ten_toDigits]), Nat.ofDigitChars_ten_toDigits]
  obtain ⟨first, others, heq⟩ := List.exists_cons_of_ne_nil (Nat.toDigits_ne_nil (n := n) (b := 10))
  have hzero := toDigits_zero_or_length heq
  rw [heq] at htake hgather ⊢
  rw [List.cons_append] at htake ⊢
  unfold readUnsigned
  dsimp only
  rw [htake]
  dsimp only
  rw [if_neg (by simp), if_neg hzero, hgather]
  dsimp only
  split
  · exact absurd rfl (hrest _ rfl).2.1
  · exact absurd rfl (hrest _ rfl).2.2.1
  · exact absurd rfl (hrest _ rfl).2.2.2
  · rfl

/-- An integer of 64 bits, with a sign or without one, is read back from its digits. -/
theorem readNumber_integerText {n : Int} {rest : List Char} (hlow : Int64.minValue.toInt ≤ n)
    (hhigh : n < UInt64.size) (hrest : Ends rest) :
    readNumber (integerText n ++ rest) = .ok (.integer n, rest) := by
  unfold integerText
  rw [Int64.toInt_minValue] at hlow
  rw [UInt64.size] at hhigh
  have hlimit : n.natAbs ≤ significandLimit := by
    rw [significandLimit, UInt64.size]
    omega
  split
  · rename_i hneg
    rw [List.cons_append, readNumber, readUnsigned_toDigits hlimit hrest]
    have hfits : ¬ (n.natAbs = 0 ∨ Nat.pow 2 63 < n.natAbs) := by
      show ¬ (n.natAbs = 0 ∨ 2 ^ 63 < n.natAbs)
      omega
    rw [if_neg (by decide), if_neg hfits, show -(n.natAbs : Int) = n by omega]
  · rename_i hpos
    obtain ⟨first, others, heq⟩ :=
      List.exists_cons_of_ne_nil (Nat.toDigits_ne_nil (n := n.natAbs) (b := 10))
    have hread := readUnsigned_toDigits hlimit hrest false
    have hfirst : first.isDigit = true := isDigit_of_mem_toDigits first (heq ▸ List.mem_cons_self)
    rw [heq, List.cons_append] at hread ⊢
    unfold readNumber
    split
    · rename_i hminus
      cases hminus
      cases hfirst
    · rw [hread, if_pos (by decide), show (n.natAbs : Int) = n by omega]

/-- The first character of an integer. -/
theorem exists_integerText_eq_cons (n : Int) :
    ∃ c rest, integerText n = c :: rest ∧ startsNumber c = true := by
  unfold integerText
  split
  · exact ⟨'-', _, rfl, rfl⟩
  · obtain ⟨first, others, heq⟩ :=
      List.exists_cons_of_ne_nil (Nat.toDigits_ne_nil (n := n.natAbs) (b := 10))
    refine ⟨first, others, heq, ?_⟩
    rw [startsNumber, isDigit_of_mem_toDigits first (heq ▸ List.mem_cons_self), Bool.or_true]

end ServiceHost.Json
