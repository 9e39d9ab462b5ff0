import ServiceHost.Capability
import Mathlib.Computability.Language
import Mathlib.Data.Char
import Mathlib.Order.Interval.Set.Basic

/-!
# Forms — capabilities as a regular language

The texts that name a capability are a **regular language** (`form`), written down here word by word
as it is spoken of. The check reads a text once, from left to right, and all that it remembers is
whether it stands at the start of a word or behind a character of one. What it may still read is a
language in either case, `segment` or `tail`, and the check is written by the equations of these two
(`segment_eq`, `tail_eq`); so it accepts the language, and nothing else.

A colon is in no segment. That is why cutting at the **first** one loses nothing: where a text has a
second, no other cut would have been better.
-/

set_option autoImplicit false

open Computability

namespace ServiceHost

namespace Capability

/-! ## The language -/

/-- The texts of one character, of the given ones. -/
def oneOf (kind : Set Char) : Language Char :=
  {cs | ∃ c ∈ kind, cs = [c]}

/-- The characters of words. -/
def wordChars : Set Char :=
  Set.Icc 'a' 'z' ∪ Set.Icc '0' '9'

/-- The characters between words. -/
def separators : Set Char :=
  {'.', '_', '-'}

def word : Language Char :=
  oneOf wordChars * (oneOf wordChars)∗

/-- Words with single separators between them. -/
def segment : Language Char :=
  word * (oneOf separators * word)∗

/-- A namespace and a name. -/
def form : Language Char :=
  segment * oneOf {':'} * segment

/-- What may follow the first character of a segment. -/
def tail : Language Char :=
  (oneOf wordChars)∗ * (oneOf separators * word)∗

variable {kind : Set Char} {language : Language Char} {c : Char} {cs rest before after : List Char}

theorem cons_mem_oneOf_mul : c :: rest ∈ oneOf kind * language ↔ c ∈ kind ∧ rest ∈ language := by
  rw [Language.mem_mul]
  constructor
  · rintro ⟨_, ⟨first, hfirst, rfl⟩, others, hothers, heq⟩
    obtain ⟨rfl, rfl⟩ := List.cons.inj heq
    exact ⟨hfirst, hothers⟩
  · rintro ⟨hc, hrest⟩
    exact ⟨[c], ⟨c, hc, rfl⟩, rest, hrest, rfl⟩

theorem nil_not_mem_oneOf_mul : [] ∉ oneOf kind * language := by
  rw [Language.mem_mul]
  rintro ⟨_, ⟨first, -, rfl⟩, others, -, heq⟩
  cases heq

/-- A segment starts with a character of a word. -/
theorem segment_eq : segment = oneOf wordChars * tail := by
  rw [segment, tail, ← mul_assoc]
  rfl

/-- Behind a character of a word the segment ends, or the word goes on, or another one follows. -/
theorem tail_eq : tail = 1 + oneOf separators * segment + oneOf wordChars * tail := by
  calc tail
      = (1 + oneOf wordChars * (oneOf wordChars)∗) * (oneOf separators * word)∗ := by
        rw [Language.one_add_self_mul_kstar_eq_kstar, tail]
    _ = (oneOf separators * word)∗ + oneOf wordChars * tail := by
        rw [add_mul, one_mul, mul_assoc, ← tail]
    _ = 1 + oneOf separators * word * (oneOf separators * word)∗ + oneOf wordChars * tail := by
        rw [Language.one_add_self_mul_kstar_eq_kstar]
    _ = 1 + oneOf separators * segment + oneOf wordChars * tail := by
        rw [mul_assoc (oneOf separators), ← segment]

theorem nil_mem_tail : [] ∈ tail := by
  rw [tail_eq]
  exact Or.inl (Or.inl Language.nil_mem_one)

theorem cons_mem_tail :
    c :: rest ∈ tail ↔ c ∈ wordChars ∧ rest ∈ tail ∨ c ∈ separators ∧ rest ∈ segment := by
  conv_lhs => rw [tail_eq]
  rw [Language.mem_add, Language.mem_add, Language.mem_one, cons_mem_oneOf_mul, cons_mem_oneOf_mul,
    or_comm]
  simp only [List.cons_ne_nil, false_or]

/-! ## The check -/

theorem isWordChar_iff : isWordChar c = true ↔ c ∈ wordChars := by
  simp only [isWordChar, wordChars, Bool.or_eq_true, Bool.and_eq_true, decide_eq_true_eq,
    Set.mem_union, Set.mem_Icc]

theorem isSeparator_iff : isSeparator c = true ↔ c ∈ separators := by
  simp only [isSeparator, separators, Bool.or_eq_true, decide_eq_true_eq, Set.mem_insert_iff,
    Set.mem_singleton_iff, or_assoc]

theorem isWordChar_of_isSeparator (h : isSeparator c = true) : isWordChar c = false := by
  simp only [isSeparator, Bool.or_eq_true, decide_eq_true_eq] at h
  obtain (rfl | rfl) | rfl := h <;> decide

mutual

theorem isWords_iff : ∀ {cs : List Char}, isWords cs = true ↔ cs ∈ segment
  | [] => by
    rw [segment_eq]
    exact iff_of_false Bool.false_ne_true nil_not_mem_oneOf_mul
  | c :: rest => by
    rw [segment_eq, cons_mem_oneOf_mul, isWords, Bool.and_eq_true, isWordChar_iff, isWordsRest_iff]

theorem isWordsRest_iff : ∀ {cs : List Char}, isWordsRest cs = true ↔ cs ∈ tail
  | [] => iff_of_true rfl nil_mem_tail
  | c :: rest => by
    rw [cons_mem_tail, isWordsRest, ← isWordChar_iff, ← isSeparator_iff, ← isWordsRest_iff,
      ← isWords_iff]
    -- No character is of both kinds, so asking for the one first hides nothing of the other.
    cases hword : isWordChar c with
    | false => simp
    | true =>
      have hseparator : isSeparator c = false :=
        Bool.eq_false_iff.mpr fun h => by simp [isWordChar_of_isSeparator h] at hword
      simp [hseparator]

end

mutual

theorem colon_not_mem_of_mem_segment : ∀ {cs : List Char}, cs ∈ segment → ':' ∉ cs
  | [], _ => List.not_mem_nil
  | c :: rest, h => by
    rw [segment_eq, cons_mem_oneOf_mul, ← isWordChar_iff] at h
    have hne : ':' ≠ c := by
      rintro rfl
      exact absurd h.1 (by decide)
    exact List.not_mem_cons_of_ne_of_not_mem hne (colon_not_mem_of_mem_tail h.2)

theorem colon_not_mem_of_mem_tail : ∀ {cs : List Char}, cs ∈ tail → ':' ∉ cs
  | [], _ => List.not_mem_nil
  | c :: rest, h => by
    rw [cons_mem_tail, ← isWordChar_iff, ← isSeparator_iff] at h
    rcases h with ⟨hc, hrest⟩ | ⟨hc, hrest⟩
    all_goals
      have hne : ':' ≠ c := by
        rintro rfl
        exact absurd hc (by decide)
    · exact List.not_mem_cons_of_ne_of_not_mem hne (colon_not_mem_of_mem_tail hrest)
    · exact List.not_mem_cons_of_ne_of_not_mem hne (colon_not_mem_of_mem_segment hrest)

end

theorem mem_form_iff :
    cs ∈ form ↔ ∃ before ∈ segment, ∃ after ∈ segment, cs = before ++ ':' :: after := by
  rw [form, mul_assoc, Language.mem_mul]
  constructor
  · rintro ⟨before, hbefore, _, hrest, rfl⟩
    obtain ⟨_, ⟨c, rfl, rfl⟩, after, hafter, rfl⟩ := Language.mem_mul.mp hrest
    exact ⟨before, hbefore, after, hafter, rfl⟩
  · rintro ⟨before, hbefore, after, hafter, rfl⟩
    exact ⟨before, hbefore, ':' :: after, cons_mem_oneOf_mul.mpr ⟨rfl, hafter⟩, rfl⟩

/-- The cut at the first colon is the only one that may find two segments. -/
theorem append_mem_form_iff (h : ':' ∉ before) :
    before ++ ':' :: after ∈ form ↔ before ∈ segment ∧ after ∈ segment := by
  rw [mem_form_iff]
  constructor
  · rintro ⟨first, hfirst, second, hsecond, heq⟩
    have hcut := congrArg (Text.cutOnce ':') heq
    rw [Text.cutOnce_append h, Text.cutOnce_append (colon_not_mem_of_mem_segment hfirst),
      Prod.mk.injEq, Option.some.injEq] at hcut
    obtain ⟨rfl, rfl⟩ := hcut
    exact ⟨hfirst, hsecond⟩
  · rintro ⟨hbefore, hafter⟩
    exact ⟨before, hbefore, after, hafter, rfl⟩

/-! ## The answers -/

variable {id : String}

theorem validate_of_blank (h : ∀ c ∈ id.toList, Text.isBlank c = true) :
    validate id = .error .empty := by
  rw [validate, Text.isAllBlank, if_pos (List.all_eq_true.mpr h)]

theorem not_isAllBlank (h : ∃ c ∈ id.toList, Text.isBlank c = false) :
    ¬ Text.isAllBlank id = true := by
  obtain ⟨c, hmem, hc⟩ := h
  rw [Text.isAllBlank, List.all_eq_true]
  intro hall
  simp [hall c hmem] at hc

theorem validate_of_no_colon (hsome : ∃ c ∈ id.toList, Text.isBlank c = false)
    (h : ':' ∉ id.toList) : validate id = .error (.missingNamespace id) := by
  rw [validate, if_neg (not_isAllBlank hsome), Text.cutOnce_of_not_mem h]

theorem exists_not_blank_of_colon (h : ':' ∈ id.toList) :
    ∃ c ∈ id.toList, Text.isBlank c = false :=
  ⟨':', h, by decide⟩

theorem validate_of_colon (h : ':' ∈ id.toList) :
    validate id = .ok () ∧ id.toList ∈ form ∨
      validate id = .error (.invalid id) ∧ id.toList ∉ form := by
  obtain ⟨before, after, hid, hbefore⟩ := List.eq_append_cons_of_mem h
  have hform : id.toList ∈ form ↔ (isWords before && isWords after) = true := by
    rw [hid, append_mem_form_iff hbefore, Bool.and_eq_true, isWords_iff, isWords_iff]
  have hanswer : validate id =
      if (isWords before && isWords after) = true then .ok () else .error (.invalid id) := by
    rw [validate, if_neg (not_isAllBlank (exists_not_blank_of_colon h)), hid,
      Text.cutOnce_append hbefore]
  rw [hform, hanswer]
  split
  · rename_i hwords
    exact Or.inl ⟨rfl, hwords⟩
  · rename_i hwords
    exact Or.inr ⟨rfl, hwords⟩

theorem colon_mem_of_mem_form (h : cs ∈ form) : ':' ∈ cs := by
  obtain ⟨before, -, after, -, rfl⟩ := mem_form_iff.mp h
  exact List.mem_append_right _ List.mem_cons_self

/-- **A text is accepted exactly if it has the form**, whatever characters it is made of. It is
called empty if nothing but blanks is in it, and without a namespace if more than that is in it and
no colon; and all that is left, with a colon and without the form, is invalid. The refused text is
named as it was given. -/
theorem validate_answers (id : String) :
    (validate id = .ok () ↔ id.toList ∈ form) ∧
    (validate id = .error .empty ↔ ∀ c ∈ id.toList, Text.isBlank c = true) ∧
    (validate id = .error (.missingNamespace id) ↔
      (∃ c ∈ id.toList, Text.isBlank c = false) ∧ ':' ∉ id.toList) ∧
    (validate id = .error (.invalid id) ↔
      id.toList ∉ form ∧ (∃ c ∈ id.toList, Text.isBlank c = false) ∧ ':' ∈ id.toList) := by
  have hsome_iff : (∃ c ∈ id.toList, Text.isBlank c = false) ↔
      ¬ ∀ c ∈ id.toList, Text.isBlank c = true := by simp
  by_cases hcolon : ':' ∈ id.toList
  · have hall := hsome_iff.mp (exists_not_blank_of_colon hcolon)
    rw [hsome_iff]
    rcases validate_of_colon hcolon with ⟨heq, hform⟩ | ⟨heq, hform⟩
    · simp only [heq, hform, hcolon, hall]
      simp
    · simp only [heq, hform, hcolon, hall]
      simp
  · have hform : id.toList ∉ form := fun h => hcolon (colon_mem_of_mem_form h)
    rw [hsome_iff]
    by_cases hall : ∀ c ∈ id.toList, Text.isBlank c = true
    · simp only [validate_of_blank hall, hform, hcolon, iff_true_intro hall]
      simp
    · simp only [validate_of_no_colon (hsome_iff.mpr hall) hcolon, hform, hcolon, hall]
      simp

example : validate "a:b:c" = .error (.invalid "a:b:c") := by decide +kernel

end Capability

end ServiceHost
