import ServiceHost.Json.Lexical

/-!
# Reading JSON — lists and objects around the lexemes

The loops over a list and over an object are written once, as folds over a step that reads one
item or one member (`foldItems`, `foldMembers`). Every reader is such a fold: the reader of any
value, the readers of particular shapes (`ServiceHost/Payload`), and the one that only skips.

**Nesting is bounded**: a reader takes the number of brackets it may still open, and a bracket
beyond that is malformed. Skipping a value that nobody asked for has no such bound.
-/

set_option autoImplicit false

namespace ServiceHost.Json

/-- The number of brackets that may be open at once. -/
def nestingLimit : Nat := 127

/-! ## The two loops -/

/-- Reads the items after an opening bracket up to and with the closing one. A comma calls for
an item, so none may stand before the closing bracket. `fuel` bounds the number of items. -/
def foldItems {σ : Type} (step : σ → Reader σ) : (fuel : Nat) → (first : Bool) → σ → Reader σ
  | 0, _, _, _ => .error .malformed
  | fuel + 1, first, state, cs =>
    match skipSpace cs with
    | [] => .error .unfinished
    | ']' :: rest => .ok (state, rest)
    | c :: rest =>
      if first then
        match step state (c :: rest) with
        | .error fault => .error fault
        | .ok (state, rest) => foldItems step fuel false state rest
      else if c ≠ ',' then .error .malformed
      else match skipSpace rest with
        | [] => .error .unfinished
        | ']' :: _ => .error .malformed
        | rest =>
          match step state rest with
          | .error fault => .error fault
          | .ok (state, rest) => foldItems step fuel false state rest

/-- The colon between a name and its value. -/
def expectColon (cs : List Char) : Except Fault (List Char) :=
  match skipSpace cs with
  | [] => .error .unfinished
  | ':' :: rest => .ok rest
  | _ => .error .malformed

/-- Reads the members after an opening brace up to and with the closing one. `key` reads a name
after its opening quote, and `step` the member of that name from the colon on. `fuel` bounds the
number of members. -/
def foldMembers {κ σ : Type} (key : Reader κ) (step : σ → κ → Reader σ) :
    (fuel : Nat) → (first : Bool) → σ → Reader σ
  | 0, _, _, _ => .error .malformed
  | fuel + 1, first, state, cs =>
    match skipSpace cs with
    | [] => .error .unfinished
    | '\x7d' :: rest => .ok (state, rest)
    | c :: rest =>
      let atName : Except Fault (List Char) := if first then .ok (c :: rest)
        else if c = ',' then .ok (skipSpace rest)
        else .error .malformed
      match atName with
      | .error fault => .error fault
      | .ok [] => .error .unfinished
      | .ok ('"' :: rest) =>
        match key rest with
        | .error fault => .error fault
        | .ok (name, rest) =>
          match step state name rest with
          | .error fault => .error fault
          | .ok (state, rest) => foldMembers key step fuel false state rest
      | .ok _ => .error .malformed

/-! ## Any value -/

/-- Takes the rest of a word and answers what it stands for. -/
def readWord {α : Type} (rest : String) (value : α) : Reader α := fun cs =>
  (expectWord rest.toList cs).map (value, ·)

/-- Reads any value; at most `levels` brackets may be open at once. -/
def readValue : (levels : Nat) → Reader Json
  | levels, cs =>
    match skipSpace cs with
    | [] => .error .unfinished
    | 'n' :: rest => readWord "ull" .null rest
    | 't' :: rest => readWord "rue" (.bool true) rest
    | 'f' :: rest => readWord "alse" (.bool false) rest
    | '"' :: rest => (readStringRest rest).map fun (text, rest) => (.string text, rest)
    | '[' :: rest =>
      match levels with
      | 0 => .error .malformed
      | levels + 1 =>
        let item (items : List Json) : Reader (List Json) := fun cs =>
          (readValue levels cs).map fun (value, rest) => (value :: items, rest)
        (foldItems item (rest.length + 1) true [] rest).map fun (items, rest) =>
          (.array items.reverse, rest)
    | '\x7b' :: rest =>
      match levels with
      | 0 => .error .malformed
      | levels + 1 =>
        let member (members : List (String × Json)) (name : String) :
            Reader (List (String × Json)) := fun cs => do
          let (value, rest) ← readValue levels (← expectColon cs)
          return (insert name value members, rest)
        (foldMembers readStringRest member (rest.length + 1) true [] rest).map
          fun (members, rest) => (.object members, rest)
    | c :: rest => if startsNumber c then readNumber (c :: rest) else .error .malformed

/-- The fault of a value that is not of the type asked for. A word, a number or a string is read
first, so a fault in it comes before the mismatch; a bracket is a mismatch at once. -/
def wrongType (cs : List Char) : Fault :=
  match skipSpace cs with
  | '[' :: _ | '\x7b' :: _ => .mismatch
  | cs =>
    match readValue 0 cs with
    | .error fault => fault
    | .ok _ => .mismatch

/-! ## Skipping -/

/-- Skips an exponent after its mark. In a skipped number the end of the text is malformed. -/
def skipExponent (cs : List Char) : Except Fault (List Char) :=
  let (_, cs) := Decimal.takeSign cs
  let (digits, rest) := Decimal.takeDigits cs
  if digits.isEmpty then .error .malformed else .ok rest

/-- Skips an exponent if there is one. -/
def skipExponent? (cs : List Char) : Except Fault (List Char) :=
  match cs with
  | 'e' :: rest | 'E' :: rest => skipExponent rest
  | cs => .ok cs

/-- Skips a number; its magnitude does not matter. -/
def skipNumber (cs : List Char) : Except Fault (List Char) :=
  let cs := match cs with
    | '-' :: rest => rest
    | cs => cs
  let (digits, rest) := Decimal.takeDigits cs
  match digits with
  | [] | '0' :: _ :: _ => .error .malformed
  | _ =>
    match rest with
    | '.' :: rest =>
      let (digits, rest) := Decimal.takeDigits rest
      if digits.isEmpty then .error .malformed else skipExponent? rest
    | rest => skipExponent? rest

/-- Skips a string after its opening quote. A surrogate needs no partner here. -/
def skipStringRest : (fuel : Nat) → List Char → Except Fault (List Char)
  | 0, _ => .error .malformed
  | _ + 1, [] => .error .unfinished
  | _ + 1, '"' :: rest => .ok rest
  | fuel + 1, '\\' :: 'u' :: rest =>
    match readHex4 rest with
    | .error fault => .error fault
    | .ok (_, rest) => skipStringRest fuel rest
  | fuel + 1, '\\' :: rest =>
    match readEscape rest with
    | .error fault => .error fault
    | .ok (_, rest) => skipStringRest fuel rest
  | fuel + 1, c :: rest =>
    if c.toNat < 0x20 then .error .malformed else skipStringRest fuel rest

/-- Skips a value of any nesting; `fuel` bounds the nesting. -/
def skipValue : (fuel : Nat) → List Char → Except Fault (List Char)
  | 0, _ => .error .malformed
  | fuel + 1, cs =>
    match skipSpace cs with
    | [] => .error .unfinished
    | 'n' :: rest => expectWord "ull".toList rest
    | 't' :: rest => expectWord "rue".toList rest
    | 'f' :: rest => expectWord "alse".toList rest
    | '"' :: rest => skipStringRest (rest.length + 1) rest
    | '[' :: rest =>
      let item (_ : Unit) : Reader Unit := fun cs => (skipValue fuel cs).map ((), ·)
      (foldItems item (rest.length + 1) true () rest).map (·.2)
    | '\x7b' :: rest =>
      let key : Reader Unit := fun cs => (skipStringRest (cs.length + 1) cs).map ((), ·)
      let member (_ _ : Unit) : Reader Unit := fun cs => do
        return ((), ← skipValue fuel (← expectColon cs))
      (foldMembers key member (rest.length + 1) true () rest).map (·.2)
    | c :: rest => if startsNumber c then skipNumber (c :: rest) else .error .malformed

/-! ## Whole texts -/

/-- Reads a whole text: nothing but spaces may follow the value. -/
def readWhole {α : Type} (reader : Reader α) (text : String) : Except Fault α :=
  match reader text.toList with
  | .error fault => .error fault
  | .ok (value, rest) => if (skipSpace rest).isEmpty then .ok value else .error .malformed

def parse (text : String) : Except Fault Json :=
  readWhole (readValue nestingLimit) text

end ServiceHost.Json
