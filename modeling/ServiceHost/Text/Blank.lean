/-!
# Blank characters — the Unicode property White_Space

Every "trimmed" and every "blank" of this library means this set and no other: U+00A0, U+0085
and U+3000 are blank, while U+001C, U+200B and U+FEFF, which other notions of white space
include, are not. Keys, levels, directories and numbers are all trimmed by it.
-/

set_option autoImplicit false

namespace ServiceHost.Text

/-- The ranges of White_Space, both ends included. -/
def blankRanges : List (Nat × Nat) :=
  [(0x09, 0x0d), (0x20, 0x20), (0x85, 0x85), (0xa0, 0xa0), (0x1680, 0x1680), (0x2000, 0x200a),
   (0x2028, 0x2029), (0x202f, 0x202f), (0x205f, 0x205f), (0x3000, 0x3000)]

/-- The character has the property White_Space. -/
def isBlank (c : Char) : Bool :=
  blankRanges.any fun (low, high) => low ≤ c.toNat && c.toNat ≤ high

/-- The text without the blanks at both of its ends. -/
def trimChars (cs : List Char) : List Char :=
  ((cs.dropWhile isBlank).reverse.dropWhile isBlank).reverse

/-- The text without the blanks at both of its ends. -/
def trim (text : String) : String :=
  String.ofList (trimChars text.toList)

/-- The text holds nothing but blanks, or nothing at all. -/
def isAllBlank (text : String) : Bool :=
  text.toList.all isBlank

theorem dropWhile_isBlank_eq_nil_iff (cs : List Char) :
    cs.dropWhile isBlank = [] ↔ cs.all isBlank = true := by
  induction cs with
  | nil => simp
  | cons c rest ih => by_cases hc : isBlank c <;> simp [List.dropWhile, hc, ih]

theorem all_dropWhile_isBlank (cs : List Char) :
    (cs.dropWhile isBlank).all isBlank = cs.all isBlank := by
  induction cs with
  | nil => rfl
  | cons c rest ih => by_cases hc : isBlank c <;> simp [List.dropWhile, hc, ih]

/-- A text is trimmed to nothing exactly when it is all blank. -/
theorem trimChars_eq_nil_iff (cs : List Char) : trimChars cs = [] ↔ cs.all isBlank = true := by
  rw [trimChars, List.reverse_eq_nil_iff, dropWhile_isBlank_eq_nil_iff, List.all_reverse,
    all_dropWhile_isBlank]

theorem dropWhile_isBlank_append {before rest : List Char} (hbefore : ∀ c ∈ before, isBlank c = true)
    (hrest : ∀ c ∈ rest.head?, isBlank c = false) : (before ++ rest).dropWhile isBlank = rest := by
  rw [List.dropWhile_append_of_pos hbefore]
  cases rest with
  | nil => rfl
  | cons c others => rw [List.dropWhile_cons_of_neg (by simp [hrest c rfl])]

/-- What stands between blanks is what is left, if it has no blank itself. -/
theorem trimChars_append {before core after : List Char} (hbefore : ∀ c ∈ before, isBlank c = true)
    (hcore : ∀ c ∈ core, isBlank c = false) (hafter : ∀ c ∈ after, isBlank c = true) :
    trimChars (before ++ core ++ after) = core := by
  cases core with
  | nil =>
    rw [trimChars_eq_nil_iff, List.append_nil, List.all_append, Bool.and_eq_true,
      List.all_eq_true, List.all_eq_true]
    exact ⟨hbefore, hafter⟩
  | cons first others =>
    have hfront : (before ++ (first :: others) ++ after).dropWhile isBlank =
        (first :: others) ++ after := by
      rw [List.append_assoc]
      apply dropWhile_isBlank_append hbefore
      rintro c ⟨⟩
      exact hcore first List.mem_cons_self
    have hback : (after.reverse ++ (first :: others).reverse).dropWhile isBlank =
        (first :: others).reverse := by
      apply dropWhile_isBlank_append
      · exact fun c hc => hafter c (List.mem_reverse.mp hc)
      · exact fun c hc => hcore c (List.mem_reverse.mp (List.mem_of_mem_head? hc))
    rw [trimChars, hfront, List.reverse_append, hback, List.reverse_reverse]

end ServiceHost.Text
