import ServiceHost.Settings.Basic
import Mathlib.Data.Nat.Digits.Defs

/-!
# Integers — what the text of a setting spells, and what it is read as

A text of digits stands for its value by places (`valueOf`), with the sign in front of it if there
is one (`Spells`); how long it is makes no difference, nor do zeros in front. A setting **is read as
the integer that it spells between blanks, provided that the kind holds it**, and is refused
otherwise (`ReadsExactly`): the value is gathered without a bound and held against the least and the
greatest integer of the kind only then, so nothing wraps around and nothing is cut to fit.
-/

set_option autoImplicit false

namespace ServiceHost

namespace Settings

/-! ## Spelling -/

/-- At least one ASCII digit, and nothing else. -/
def IsDigits (digits : List Char) : Prop :=
  digits ≠ [] ∧ ∀ c ∈ digits, '0' ≤ c ∧ c ≤ '9'

/-- The value of digits by their places. -/
def valueOf (digits : List Char) : Nat :=
  Nat.ofDigits 10 (digits.map fun c => c.toNat - '0'.toNat).reverse

/-- A text spells an integer: digits with a plus in front or without a sign, or, where a minus is a
sign, with that. -/
inductive Spells (signed : Bool) : List Char → Int → Prop where
  | bare {digits : List Char} (h : IsDigits digits) : Spells signed digits (valueOf digits)
  | plus {digits : List Char} (h : IsDigits digits) : Spells signed ('+' :: digits) (valueOf digits)
  | minus {digits : List Char} (h : IsDigits digits) (hsigned : signed = true) :
    Spells signed ('-' :: digits) (-valueOf digits)

variable {kind : IntegerKind} {signed : Bool} {digits cs : List Char} {c : Char} {m : Nat} {n : Int}
  {s : Settings} {key value text : String}

theorem isDigit_iff : c.isDigit = true ↔ '0' ≤ c ∧ c ≤ '9' := by
  simp only [Char.isDigit, Bool.and_eq_true, decide_eq_true_eq]
  exact Iff.rfl

/-- Gathering digits one by one gives their value by places. -/
theorem foldl_digits (digits : List Char) :
    digits.foldl (fun value c => value * 10 + (c.toNat - '0'.toNat)) 0 = valueOf digits := by
  rw [valueOf, Nat.ofDigits_eq_foldr, List.foldr_reverse, List.foldl_map]
  congr 1
  funext value c
  rw [Nat.cast_id, Nat.add_comm, Nat.mul_comm]

theorem digitsValue?_eq_some_iff :
    digitsValue? digits = some m ↔ IsDigits digits ∧ valueOf digits = m := by
  have hdigits : IsDigits digits ↔ ¬ (digits.isEmpty || !digits.all Char.isDigit) = true := by
    simp [IsDigits, ← isDigit_iff]
  rw [digitsValue?, hdigits, foldl_digits]
  split
  · rename_i hnot
    simp [hnot]
  · rename_i hok
    simp [hok]

/-- What is made of the value of digits. -/
theorem map_digitsValue?_eq_some_iff (f : Nat → Int) :
    (digitsValue? digits).map f = some n ↔ IsDigits digits ∧ f (valueOf digits) = n := by
  rw [Option.map_eq_some_iff]
  constructor
  · rintro ⟨m, hm, rfl⟩
    obtain ⟨hdigits, rfl⟩ := digitsValue?_eq_some_iff.mp hm
    exact ⟨hdigits, rfl⟩
  · rintro ⟨hdigits, rfl⟩
    exact ⟨_, digitsValue?_eq_some_iff.mpr ⟨hdigits, rfl⟩, rfl⟩

theorem IsDigits.not_sign (h : IsDigits (c :: digits)) : c ≠ '+' ∧ c ≠ '-' := by
  have hc := h.2 c List.mem_cons_self
  constructor
  · rintro rfl
    exact absurd hc (by decide)
  · rintro rfl
    exact absurd hc (by decide)

theorem spelled?_eq_some_iff : kind.spelled? cs = some n ↔ Spells kind.isSigned cs n := by
  unfold IntegerKind.spelled?
  split
  · rename_i digits
    rw [map_digitsValue?_eq_some_iff]
    constructor
    · rintro ⟨h, rfl⟩
      exact .plus h
    · rintro (h | h)
      · exact absurd rfl h.not_sign.1
      · exact ⟨h, rfl⟩
  · rename_i digits
    split
    · rename_i hsigned
      rw [map_digitsValue?_eq_some_iff]
      constructor
      · rintro ⟨h, rfl⟩
        exact .minus h hsigned
      · rintro (h | h | h)
        · exact absurd rfl h.not_sign.2
        · exact ⟨h, rfl⟩
    · rename_i hunsigned
      refine iff_of_false (fun h => by cases h) ?_
      rintro (h | h | ⟨_, hsigned⟩)
      · exact absurd rfl h.not_sign.2
      · exact hunsigned hsigned
  · rename_i hplus hminus
    rw [map_digitsValue?_eq_some_iff]
    constructor
    · rintro ⟨h, rfl⟩
      exact .bare h
    · rintro (h | h | h)
      · exact ⟨h, rfl⟩
      · exact absurd rfl (hplus _)
      · exact absurd rfl (hminus _)

theorem read?_eq_some_iff :
    kind.read? text = some n ↔
      Spells kind.isSigned (Text.trim text).toList n ∧ kind.least ≤ n ∧ n ≤ kind.greatest := by
  rw [IntegerKind.read?, Option.filter_eq_some_iff, spelled?_eq_some_iff, Text.trim,
    String.toList_ofList, decide_eq_true_eq]

/-! ## Reading -/

/-- An answer about a value: the integer that it spells between blanks if that lies between the
two bounds, and the refusal otherwise. -/
structure ReadsExactly (answer : Except SettingsError Int) (value : String) (signed : Bool)
    (least greatest : Int) (refusal : SettingsError) : Prop where
  ok_iff : ∀ n, answer = .ok n ↔
    Spells signed (Text.trim value).toList n ∧ least ≤ n ∧ n ≤ greatest
  refused : (∀ n, ¬ (Spells signed (Text.trim value).toList n ∧ least ≤ n ∧ n ≤ greatest)) →
    answer = .error refusal

theorem readsExactly_parsed (s : Settings) (kind : IntegerKind) (key value : String) :
    ReadsExactly (s.parsed key value kind.label kind.read?) value kind.isSigned kind.least
      kind.greatest (.unparseable (s.absolute key) value kind.label) := by
  constructor
  · intro n
    rw [← read?_eq_some_iff, parsed]
    cases kind.read? value <;> simp
  · intro hnone
    have hread : kind.read? value = none := by
      rw [Option.eq_none_iff_forall_ne_some]
      exact fun n hn => hnone n (read?_eq_some_iff.mp hn)
    rw [parsed, hread]

theorem readsExactly_integer (h : s.text? key = some value) (kind : IntegerKind) :
    ReadsExactly (s.integer kind key) value kind.isSigned kind.least kind.greatest
      (.unparseable (s.absolute key) value kind.label) := by
  have hinteger : s.integer kind key = s.parsed key value kind.label kind.read? := by
    rw [integer, text, h]
  rw [hinteger]
  exact readsExactly_parsed s kind key value

theorem readsExactly_integerOr (h : s.text? key = some value) (kind : IntegerKind) (default : Int) :
    ReadsExactly (s.integerOr kind key default) value kind.isSigned kind.least kind.greatest
      (.unparseable (s.absolute key) value kind.label) := by
  have hinteger : s.integerOr kind key default = s.parsed key value kind.label kind.read? := by
    rw [integerOr, h]
  rw [hinteger]
  exact readsExactly_parsed s kind key value

/-! ## Decimal texts -/

theorem isDigits_toDigits (m : Nat) : IsDigits (Nat.toDigits 10 m) :=
  ⟨Nat.toDigits_ne_nil, fun _ hc =>
    isDigit_iff.mp (Nat.isDigit_of_mem_toDigits (by decide) (by decide) hc)⟩

theorem valueOf_toDigits (m : Nat) : valueOf (Nat.toDigits 10 m) = m := by
  rw [← foldl_digits]
  conv_rhs => rw [← Nat.ofDigitChars_ten_toDigits (n := m)]
  rw [Nat.ofDigitChars]
  congr 1
  funext value c
  rw [Nat.mul_comm]

/-- An integer is spelled by its decimal text. -/
theorem spells_toString (h : 0 ≤ n ∨ signed = true) : Spells signed (toString n).toList n := by
  cases n with
  | ofNat m =>
    have htext : (toString (Int.ofNat m)).toList = Nat.toDigits 10 m := Nat.toList_repr
    have hspells : Spells signed _ _ := Spells.bare (isDigits_toDigits m)
    rw [valueOf_toDigits] at hspells
    rw [htext]
    exact hspells
  | negSucc m =>
    have htext : (toString (Int.negSucc m)).toList = '-' :: Nat.toDigits 10 (m + 1) := by
      show ("-" ++ (m + 1).repr).toList = _
      rw [String.toList_append, Nat.toList_repr]
      rfl
    have hsigned : signed = true := h.resolve_left (by omega)
    have hspells := Spells.minus (isDigits_toDigits (m + 1)) hsigned
    rw [valueOf_toDigits] at hspells
    rw [htext]
    exact hspells

theorem IsDigits.isBlank_eq_false (h : IsDigits digits) :
    ∀ c ∈ digits, Text.isBlank c = false := by
  intro c hc
  obtain ⟨hlow, hhigh⟩ := h.2 c hc
  have hlow : 48 ≤ c.toNat := hlow
  have hhigh : c.toNat ≤ 57 := hhigh
  simp only [Text.isBlank, Text.blankRanges, List.any_cons, List.any_nil, Bool.or_false,
    Bool.or_eq_false_iff, Bool.and_eq_false_iff, decide_eq_false_iff_not]
  omega

theorem Spells.isBlank_eq_false (h : Spells signed cs n) : ∀ c ∈ cs, Text.isBlank c = false := by
  have hplus : Text.isBlank '+' = false := by decide
  have hminus : Text.isBlank '-' = false := by decide
  cases h with
  | bare h => exact h.isBlank_eq_false
  | plus h => exact List.forall_mem_cons.mpr ⟨hplus, h.isBlank_eq_false⟩
  | minus h _ => exact List.forall_mem_cons.mpr ⟨hminus, h.isBlank_eq_false⟩

/-- The value is the text with nothing but blanks around it. -/
def Surrounds (value text : String) : Prop :=
  ∃ before after : List Char, (∀ c ∈ before, Text.isBlank c = true) ∧
    (∀ c ∈ after, Text.isBlank c = true) ∧ value.toList = before ++ text.toList ++ after

theorem Surrounds.spells_trim (h : Surrounds value text) (hspells : Spells signed text.toList n) :
    Spells signed (Text.trim value).toList n := by
  obtain ⟨before, after, hbefore, hafter, hvalue⟩ := h
  rw [Text.trim, String.toList_ofList, hvalue,
    Text.trimChars_append hbefore hspells.isBlank_eq_false hafter]
  exact hspells

/-- **A setting is read as exactly the integer that it spells**, by the getters of 32 and of 64 bits
and by the unsigned one: digits of any number, with a sign if they have one, and blanks around them.
A text that spells none, or one that the kind does not hold, is refused with the absolute key, the
text as it was given and the name of the kind. So the decimal text of every integer of 64 bits is
read back, and what is read as an integer of 32 bits is read as the same one of 64. -/
theorem integers_read_exactly (s : Settings) (key value : String) (h : s.text? key = some value)
    (default : Int) :
    ReadsExactly (s.integer .integer key) value true (-2 ^ 31) (2 ^ 31 - 1)
      (.unparseable (s.absolute key) value "integer") ∧
    ReadsExactly (s.integer .long key) value true (-2 ^ 63) (2 ^ 63 - 1)
      (.unparseable (s.absolute key) value "long") ∧
    ReadsExactly (s.integerOr .unsignedLong key default) value false 0 (2 ^ 64 - 1)
      (.unparseable (s.absolute key) value "unsigned long") ∧
    (∀ n : Int64, Surrounds value (toString n) → s.integer .long key = .ok n.toInt) ∧
    (∀ n : UInt64, Surrounds value (toString n) →
      s.integerOr .unsignedLong key default = .ok n.toNat) ∧
    (∀ n, s.integer .integer key = .ok n → s.integer .long key = .ok n) := by
  have hinteger : ReadsExactly _ value true (-2 ^ 31) (2 ^ 31 - 1) _ :=
    readsExactly_integer h .integer
  have hlong : ReadsExactly _ value true (-2 ^ 63) (2 ^ 63 - 1) _ :=
    readsExactly_integer h .long
  have hunsigned : ReadsExactly _ value false 0 (2 ^ 64 - 1) _ :=
    readsExactly_integerOr h .unsignedLong default
  refine ⟨hinteger, hlong, hunsigned, ?_, ?_, ?_⟩
  · intro n hvalue
    have hspells := hvalue.spells_trim (spells_toString (Or.inr rfl))
    exact (hlong.ok_iff _).mpr ⟨hspells, n.le_toInt, Int.le_sub_one_of_lt n.toInt_lt⟩
  · intro n hvalue
    have htext : toString n = toString (n.toNat : Int) := rfl
    have hnonneg : (0 : Int) ≤ n.toNat := Int.natCast_nonneg _
    rw [htext] at hvalue
    have hspells : Spells false _ n.toNat := hvalue.spells_trim (spells_toString (Or.inl hnonneg))
    have hlt := n.toNat_lt
    exact (hunsigned.ok_iff _).mpr ⟨hspells, hnonneg, by omega⟩
  · intro n hn
    obtain ⟨hspells, hleast, hgreatest⟩ := (hinteger.ok_iff n).mp hn
    exact (hlong.ok_iff n).mpr ⟨hspells, by omega, by omega⟩

/-- The least integer of 64 bits, between blanks. -/
def leastLong : Settings :=
  ofList [("edc.core.least", "\t-9223372036854775808\u3000")]

theorem read_leastLong :
    leastLong.text? "edc.core.least" = some "\t-9223372036854775808\u3000" ∧
    leastLong.integer .long "edc.core.least" = .ok (-2 ^ 63) ∧
    leastLong.integer .integer "edc.core.least" = .error
      (.unparseable "edc.core.least" "\t-9223372036854775808\u3000" "integer") ∧
    leastLong.integerOr .unsignedLong "edc.core.least" 60 = .error
      (.unparseable "edc.core.least" "\t-9223372036854775808\u3000" "unsigned long") := by
  have htext : leastLong.text? "edc.core.least" = some "\t-9223372036854775808\u3000" := by
    decide +kernel
  have habsolute : leastLong.absolute "edc.core.least" = "edc.core.least" := by decide +kernel
  obtain ⟨hinteger, hlong, hunsigned, hback, -, -⟩ := integers_read_exactly _ _ _ htext 60
  rw [habsolute] at hinteger hunsigned
  have htab : ∀ c ∈ ['\t'], Text.isBlank c = true := List.forall_mem_singleton.mpr (by decide)
  have hspace : ∀ c ∈ ['\u3000'], Text.isBlank c = true := List.forall_mem_singleton.mpr (by decide)
  have hread := hback Int64.minValue ⟨_, _, htab, hspace, by decide +kernel⟩
  rw [Int64.toInt_minValue] at hread
  refine ⟨htext, hread, hinteger.refused ?_, hunsigned.refused ?_⟩
  · rintro n ⟨hspells, hleast, hgreatest⟩
    have hsame := (hlong.ok_iff n).mpr ⟨hspells, by omega, by omega⟩
    rw [hread, Except.ok.injEq] at hsame
    omega
  · rintro n ⟨hspells, hleast, -⟩
    have htrim : (Text.trim "\t-9223372036854775808\u3000").toList =
        '-' :: "9223372036854775808".toList := by decide +kernel
    rw [htrim] at hspells
    cases hspells with
    | bare h => exact absurd rfl h.not_sign.2
    | minus _ hsigned => cases hsigned

end Settings

end ServiceHost
