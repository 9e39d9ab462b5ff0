/-!
# Bytes — the front of a text that takes a number of bytes

A character takes one to four bytes in UTF-8, and a cut never divides one. So a number of bytes
has a front of its own only if it ends between two characters: `front? n cs` is the front of `cs`
that takes `n` bytes (`byteCount_of_front?`), and every front is found (`front?_append`).
-/

set_option autoImplicit false

namespace ServiceHost.Text

/-- The bytes that characters take. -/
def byteCount : List Char → Nat
  | [] => 0
  | c :: rest => c.utf8Size + byteCount rest

/-- The front that takes `count` bytes. There is none where they end inside a character or behind
the text. -/
def front? : (count : Nat) → List Char → Option (List Char)
  | 0, _ => some []
  | _ + 1, [] => none
  | count + 1, c :: rest =>
    if c.utf8Size ≤ count + 1 then (front? (count + 1 - c.utf8Size) rest).map (c :: ·) else none

theorem byteCount_of_front? {count : Nat} {cs front : List Char}
    (h : front? count cs = some front) : byteCount front = count := by
  induction cs generalizing count front with
  | nil =>
    cases count with
    | zero => cases h; rfl
    | succ count => cases h
  | cons c rest ih =>
    cases count with
    | zero => cases h; rfl
    | succ count =>
      simp only [front?] at h
      split at h
      · obtain ⟨tail, found, rfl⟩ := Option.map_eq_some_iff.1 h
        simp only [byteCount, ih found]
        omega
      · cases h

theorem front?_append (front rest : List Char) :
    front? (byteCount front) (front ++ rest) = some front := by
  induction front with
  | nil => cases rest <;> rfl
  | cons c front ih =>
    have size : 0 < c.utf8Size := Char.utf8Size_pos c
    obtain ⟨count, counted⟩ : ∃ count, byteCount (c :: front) = count + 1 :=
      ⟨c.utf8Size + byteCount front - 1, by simp only [byteCount]; omega⟩
    have left : count + 1 - c.utf8Size = byteCount front := by
      rw [← counted]
      simp only [byteCount]
      omega
    have fits : c.utf8Size ≤ count + 1 := by
      rw [← counted]
      exact Nat.le_add_right ..
    rw [counted, List.cons_append, front?, if_pos fits, left, ih]
    rfl

end ServiceHost.Text
