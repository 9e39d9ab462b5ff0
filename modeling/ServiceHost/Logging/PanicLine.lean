/-!
# Panic lines — the message of a crash on one line

A message that ends up in the log must not break its lines: every control character becomes a
blank, and a long message is cut.
-/

set_option autoImplicit false

namespace ServiceHost

namespace PanicLine

/-- The greatest number of characters that are shown. -/
def limit : Nat := 160

/-- A control character, of ASCII or of the block behind it. -/
def isControl (c : Char) : Bool :=
  c.toNat < 0x20 || (0x7f ≤ c.toNat && c.toNat < 0xa0)

/-- The characters of a message on one line, and a mark if some were cut off. -/
def cut (limit : Nat) (message : List Char) : List Char :=
  let shown := (message.take limit).map fun c => if isControl c then ' ' else c
  if limit < message.length then shown ++ "...".toList else shown

/-- The line of a crash: its message, if it has one. -/
def text : (message : Option String) → String
  | some message => String.ofList (cut limit message.toList)
  | none => String.ofList (cut limit "<non-string payload>".toList)

/-- A line is never longer than the limit and the mark. -/
theorem length_cut_le (limit : Nat) (message : List Char) :
    (cut limit message).length ≤ limit + 3 := by
  have shown :
      ((message.take limit).map fun c => if isControl c then ' ' else c).length ≤ limit := by
    rw [List.length_map]
    exact List.length_take_le limit message
  have mark : "...".toList.length = 3 := by decide
  unfold cut
  split
  · rw [List.length_append, mark]
    exact Nat.add_le_add_right shown 3
  · exact Nat.le_add_right_of_le shown

end PanicLine

end ServiceHost
