/-!
# Segments — a text cut at a separator

`a.b.c` has the segments `a`, `b` and `c`; the empty text has one segment, the empty one, and a
separator at an end or beside another makes an empty segment there. Joining undoes cutting, so
a dotted key and its segments are two views of one thing.
-/

set_option autoImplicit false

namespace ServiceHost.Text

/-- Cuts `cs` at every `separator`; the result is never empty. -/
def cut (separator : Char) : List Char → List (List Char)
  | [] => [[]]
  | c :: rest =>
    if c = separator then [] :: cut separator rest
    else match cut separator rest with
      | segment :: segments => (c :: segment) :: segments
      | [] => [[c]]

def segments (separator : Char) (text : String) : List String :=
  (cut separator text.toList).map String.ofList

/-- The text before the first `separator`, and the text after it if there is one. -/
def cutOnce (separator : Char) : List Char → List Char × Option (List Char)
  | [] => ([], none)
  | c :: rest =>
    if c = separator then ([], some rest)
    else
      let (before, after) := cutOnce separator rest
      (c :: before, after)

/-- The texts with `separator` between every two of them. -/
def joinWith (separator : List Char) : List (List Char) → List Char
  | [] => []
  | [segment] => segment
  | segment :: rest => segment ++ separator ++ joinWith separator rest

theorem cut_ne_nil (separator : Char) (cs : List Char) : cut separator cs ≠ [] := by
  cases cs with
  | nil => simp [cut]
  | cons c rest =>
    simp only [cut]
    split
    · simp
    · split <;> simp

/-- Joining the segments gives the text back. -/
theorem joinWith_cut (separator : Char) (cs : List Char) :
    joinWith [separator] (cut separator cs) = cs := by
  induction cs with
  | nil => rfl
  | cons c rest ih =>
    have nonempty := cut_ne_nil separator rest
    cases hcut : cut separator rest with
    | nil => exact absurd hcut nonempty
    | cons segment segments =>
      rw [hcut] at ih
      by_cases hc : c = separator
      · subst hc
        simp [cut, hcut, joinWith, ih]
      · rw [cut, if_neg hc, hcut]
        cases segments with
        | nil => simpa [joinWith] using ih
        | cons next others => simpa [joinWith] using ih

/-- No segment holds the separator. -/
theorem not_mem_of_mem_cut {separator : Char} {cs segment : List Char}
    (h : segment ∈ cut separator cs) : separator ∉ segment := by
  induction cs generalizing segment with
  | nil => simp_all [cut]
  | cons c rest ih =>
    simp only [cut] at h
    split at h
    · rcases List.mem_cons.1 h with rfl | h
      · simp
      · exact ih h
    · rename_i hc
      split at h
      · rename_i first others hcut
        rcases List.mem_cons.1 h with rfl | h
        · have := @ih first (by simp [hcut])
          simp [this, Ne.symm hc]
        · exact ih (by simp [hcut, h])
      · rename_i hcut
        exact absurd hcut (cut_ne_nil separator rest)

/-- What stands before the first separator is the longest front without one. -/
theorem cutOnce_fst (separator : Char) (cs : List Char) :
    (cutOnce separator cs).1 = cs.takeWhile (· ≠ separator) := by
  induction cs with
  | nil => rfl
  | cons c rest ih => by_cases hc : c = separator <;> simp [cutOnce, hc, ih]

theorem cutOnce_of_not_mem {separator : Char} {cs : List Char} (h : separator ∉ cs) :
    cutOnce separator cs = (cs, none) := by
  induction cs with
  | nil => rfl
  | cons c rest ih =>
    rw [List.mem_cons, not_or] at h
    rw [cutOnce, if_neg (Ne.symm h.1), ih h.2]

theorem cutOnce_append {separator : Char} {before : List Char} (h : separator ∉ before)
    (after : List Char) :
    cutOnce separator (before ++ separator :: after) = (before, some after) := by
  induction before with
  | nil => rw [List.nil_append, cutOnce, if_pos rfl]
  | cons c rest ih =>
    rw [List.mem_cons, not_or] at h
    rw [List.cons_append, cutOnce, if_neg (Ne.symm h.1), ih h.2]

end ServiceHost.Text
