import ServiceHost.Json.Lexical

/-!
# TOML lexemes — spaces, line ends, strings and keys

A settings file is TOML 1.0. A reader takes the characters that are left and answers what it
read with the characters after it, or nothing when the text is not what it reads; one that
answers nothing refuses the whole document, so no reader here ever gives way to another after it
has taken the opening of its lexeme.

Carriage returns stand only before line feeds, controls nowhere but for the tab, and U+007F
counts as a control.
-/

set_option autoImplicit false

namespace ServiceHost.Toml

/-- Reads an `α` from the front of a text, or refuses the text. -/
abbrev Reader (α : Type) := List Char → Option (α × List Char)

/-- A character that separates lexemes on a line. -/
def isSpace (c : Char) : Bool :=
  c = ' ' || c = '\t'

/-- The text from its first lexeme on, on the same line. -/
def skipSpace (cs : List Char) : List Char :=
  cs.dropWhile isSpace

/-- A character that a comment may hold, and a string on one line. -/
def isText (c : Char) : Bool :=
  c = '\t' || (0x20 ≤ c.toNat && c.toNat ≠ 0x7f)

/-- Takes a line end. -/
def lineEnd? : List Char → Option (List Char)
  | '\n' :: rest => some rest
  | '\r' :: '\n' :: rest => some rest
  | _ => none

/-- The text after a comment that may stand here. -/
def skipComment (cs : List Char) : List Char :=
  match cs with
  | '#' :: rest => rest.dropWhile isText
  | _ => cs

/-- Takes what may end a line after its last lexeme: spaces, a comment, and a line end or the
end of the text. -/
def finishLine (cs : List Char) : Option (List Char) :=
  match skipComment (skipSpace cs) with
  | [] => some []
  | cs => lineEnd? cs

/-- Skips spaces, line ends and comments, as between the items of an array; `fuel` bounds their
number. A comment there ends at a line end and not at the end of the text. -/
def skipLines : (fuel : Nat) → List Char → Option (List Char)
  | 0, cs => some cs
  | fuel + 1, cs =>
    match skipSpace cs with
    | '#' :: rest => do skipLines fuel (← lineEnd? (rest.dropWhile isText))
    | '\n' :: rest => skipLines fuel rest
    | '\r' :: rest => do skipLines fuel (← lineEnd? ('\r' :: rest))
    | cs => some cs

/-! ## Strings -/

/-- The value of the next `n` characters, all of them hexadecimal digits. -/
def readHex (n : Nat) : Reader Nat := fun cs =>
  let digits := cs.take n
  if digits.length < n then none
  else do
    let value ← digits.foldlM (fun value c => (Json.hexValue? c).map (value * 16 + ·)) 0
    return (value, cs.drop n)

/-- The character with that code point; a surrogate has none. -/
def scalar? (n : Nat) : Option Char :=
  if n.isValidChar then some (Char.ofNat n) else none

/-- The character that a letter after a backslash stands for. -/
def escaped? : Char → Option Char
  | 'b' => some '\x08'
  | 't' => some '\t'
  | 'n' => some '\n'
  | 'f' => some '\x0c'
  | 'r' => some '\r'
  | '"' => some '"'
  | '\\' => some '\\'
  | _ => none

/-- Reads the character of an escape after its backslash. -/
def readEscape : Reader Char
  | 'u' :: rest => do
    let (n, rest) ← readHex 4 rest
    return (← scalar? n, rest)
  | 'U' :: rest => do
    let (n, rest) ← readHex 8 rest
    return (← scalar? n, rest)
  | c :: rest => do return (← escaped? c, rest)
  | [] => none

/-- Reads a string with escapes after its opening quote; `fuel` bounds its length. -/
def readBasic : (fuel : Nat) → Reader (List Char)
  | 0, _ => none
  | _ + 1, [] => none
  | _ + 1, '"' :: rest => some ([], rest)
  | fuel + 1, '\\' :: rest => do
    let (c, rest) ← readEscape rest
    let (text, rest) ← readBasic fuel rest
    return (c :: text, rest)
  | fuel + 1, c :: rest => do
    if isText c then
      let (text, rest) ← readBasic fuel rest
      return (c :: text, rest)
    else none

/-- Reads a string without escapes after its opening quote. -/
def readLiteral : Reader (List Char)
  | [] => none
  | '\'' :: rest => some ([], rest)
  | c :: rest => do
    if isText c then
      let (text, rest) ← readLiteral rest
      return (c :: text, rest)
    else none

/-- The text after an opening of three quotes, where one line end is not part of the string. -/
def skipFirstLineEnd (cs : List Char) : List Char :=
  (lineEnd? cs).getD cs

/-- Takes the closing three quotes and the quotes of the string that may stand directly before
them: of a run of three to five the last three close the string. -/
def closeLines? (quote : Char) (cs : List Char) : Option (List Char × List Char) :=
  let run := cs.takeWhile (· = quote)
  let rest := cs.dropWhile (· = quote)
  if 3 ≤ run.length ∧ run.length ≤ 5 then some (run.drop 3, rest) else none

/-- The text after a backslash that ends its line: line ends and spaces up to the next other
character. None if something else stands on the line. -/
def continueLine? (cs : List Char) : Option (List Char) := do
  let rest ← lineEnd? (skipSpace cs)
  return skipBlank rest
where
  /-- The text from its first character on that is neither a space nor a line end. -/
  skipBlank : List Char → List Char
    | '\r' :: '\n' :: rest => skipBlank rest
    | c :: rest => if isSpace c || c = '\n' then skipBlank rest else c :: rest
    | [] => []

/-- Reads a string of several lines after its opening quotes, with escapes if `escapes` holds;
`fuel` bounds its length. Every line end in it reads as a line feed. -/
def readLines (quote : Char) (escapes : Bool) : (fuel : Nat) → Reader (List Char)
  | 0, _ => none
  | _ + 1, [] => none
  | fuel + 1, c :: rest =>
    if c = quote then
      match closeLines? quote (c :: rest) with
      | some (text, rest) => some (text, rest)
      | none =>
        if (rest.takeWhile (· = quote)).length < 2 then do
          let (text, rest) ← readLines quote escapes fuel rest
          return (c :: text, rest)
        else none
    else if c = '\\' ∧ escapes then
      match continueLine? rest with
      | some rest => readLines quote escapes fuel rest
      | none => do
        let (c, rest) ← readEscape rest
        let (text, rest) ← readLines quote escapes fuel rest
        return (c :: text, rest)
    else
      match lineEnd? (c :: rest) with
      | some rest => do
        let (text, rest) ← readLines quote escapes fuel rest
        return ('\n' :: text, rest)
      | none => do
        if isText c then
          let (text, rest) ← readLines quote escapes fuel rest
          return (c :: text, rest)
        else none

/-- Reads a string of any of the four forms from its opening quote on. -/
def readString (cs : List Char) : Option (String × List Char) :=
  let read := match cs with
    | '"' :: '"' :: '"' :: rest =>
      readLines '"' true (rest.length + 1) (skipFirstLineEnd rest)
    | '\'' :: '\'' :: '\'' :: rest =>
      readLines '\'' false (rest.length + 1) (skipFirstLineEnd rest)
    | '"' :: rest => readBasic (rest.length + 1) rest
    | '\'' :: rest => readLiteral rest
    | _ => none
  read.map fun (text, rest) => (String.ofList text, rest)

/-! ## Keys -/

/-- The greatest number of segments of a dotted key, and of brackets that may be open at once. -/
def nestingLimit : Nat := 79

/-- A character of a key without quotes. -/
def isBareKeyChar (c : Char) : Bool :=
  c.isAlphanum || c = '_' || c = '-'

def readSegment (cs : List Char) : Option (String × List Char) :=
  match cs with
  | '"' :: rest => (readBasic (rest.length + 1) rest).map fun (text, rest) =>
    (String.ofList text, rest)
  | '\'' :: rest => (readLiteral rest).map fun (text, rest) => (String.ofList text, rest)
  | cs =>
    let bare := cs.takeWhile isBareKeyChar
    if bare.isEmpty then none else some (String.ofList bare, cs.dropWhile isBareKeyChar)

/-- Reads a dotted key with the spaces around its segments; `fuel` bounds the segments. -/
def readKeySegments : (fuel : Nat) → Reader (List String)
  | 0, _ => none
  | fuel + 1, cs => do
    let (segment, rest) ← readSegment (skipSpace cs)
    match skipSpace rest with
    | '.' :: rest =>
      let (segments, rest) ← readKeySegments fuel rest
      return (segment :: segments, rest)
    | rest => return ([segment], rest)

/-- Reads a dotted key: the segments before its last one, and the last one. -/
def readKey (cs : List Char) : Option ((List String × String) × List Char) := do
  let (segments, rest) ← readKeySegments nestingLimit cs
  match segments.getLast? with
  | some last => return ((segments.dropLast, last), rest)
  | none => none

end ServiceHost.Toml
