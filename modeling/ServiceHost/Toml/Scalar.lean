import ServiceHost.Toml.Lexeme
import ServiceHost.Decimal.Literal

/-!
# TOML scalars — numbers and moments

Integers have 64 bits and may be written in four bases; a number with a point or an exponent is
a double and must be in range; `inf` and `nan` are doubles that no settings text can show, so
they read as null. Underscores may stand between two digits.

A moment is a date, a time or both, with an offset only after both. It reads as an object with
the single member `momentName`, whose text is written the same way whatever the spelling was:
`T` between date and time, `Z` or `±hh:mm` behind, no trailing zeros in the fraction.
-/

set_option autoImplicit false

namespace ServiceHost.Toml

/-! ## Numbers -/

/-- Reads digits, each `isDigit`, with single underscores between them; at least one. -/
def readDigits (isDigit : Char → Bool) : Reader (List Char)
  | [] => none
  | c :: rest =>
    if isDigit c then
      match rest with
      | '_' :: d :: more =>
        if isDigit d then (readDigits isDigit (d :: more)).map fun (digits, rest) =>
          (c :: digits, rest)
        else none
      | ['_'] => none
      | rest =>
        match readDigits isDigit rest with
        | some (digits, rest) => some (c :: digits, rest)
        | none => if startsRun rest then none else some ([c], rest)
    else none
where
  /-- A further digit stands here, so the run goes on and what refused it refuses the text. -/
  startsRun : List Char → Bool
    | [] => false
    | c :: _ => isDigit c

/-- Splits off a sign; `true` stands for minus. -/
def takeSign : List Char → Bool × List Char :=
  Decimal.takeSign

/-- Reads the digits of a decimal integer: zero alone, or digits that do not start with it. -/
def readWholePart : Reader (List Char)
  | '0' :: rest => some (['0'], rest)
  | cs => readDigits Char.isDigit cs

/-- The integer of 64 bits with that sign and magnitude. -/
def integer? (negative : Bool) (magnitude : Nat) : Option Json :=
  if negative then if magnitude ≤ Nat.pow 2 63 then some (.integer (-magnitude)) else none
  else if magnitude < Nat.pow 2 63 then some (.integer magnitude) else none

/-- Reads an integer in a base other than ten after its mark. -/
def readInBase (base : Nat) : Reader Json := fun cs => do
  let isDigit (c : Char) : Bool := (Json.hexValue? c).any (· < base)
  let (digits, rest) ← readDigits isDigit cs
  let magnitude := digits.foldl (fun value c => value * base + (Json.hexValue? c).getD 0) 0
  return (← integer? false magnitude, rest)

def readExponent : Reader Int := fun cs => do
  let (negative, cs) := takeSign cs
  let (digits, rest) ← readDigits Char.isDigit cs
  let magnitude : Int := Decimal.digitsValue 0 digits
  return (if negative then -magnitude else magnitude, rest)

/-- The double of a sign, digits and a power of ten. Nothing above the greatest double reads. -/
def real? (negative : Bool) (digits : List Char) (exponent : Int) : Option Json :=
  match Binary64.ofDecimal negative (Decimal.digitsValue 0 digits) exponent with
  | .infinite false => none
  | x => some (Json.ofReal x)

def readDecimal : Reader Json := fun cs => do
  let (negative, cs) := takeSign cs
  let (whole, cs) ← readWholePart cs
  match cs with
  | '.' :: cs =>
    let (fraction, cs) ← readDigits Char.isDigit cs
    let (exponent, cs) ← match cs with
      | 'e' :: cs | 'E' :: cs => readExponent cs
      | cs => some (0, cs)
    return (← real? negative (whole ++ fraction) (exponent - fraction.length), cs)
  | 'e' :: cs | 'E' :: cs =>
    let (exponent, cs) ← readExponent cs
    return (← real? negative whole exponent, cs)
  | cs => return (← integer? negative (Decimal.digitsValue 0 whole), cs)

def takeWord (word : String) (cs : List Char) : Option (List Char) :=
  if word.toList.isPrefixOf cs then some (cs.drop word.length) else none

def readNumber : Reader Json
  | '0' :: 'x' :: rest => readInBase 16 rest
  | '0' :: 'o' :: rest => readInBase 8 rest
  | '0' :: 'b' :: rest => readInBase 2 rest
  | cs =>
    let (_, unsigned) := takeSign cs
    match unsigned with
    | 'i' :: _ => (takeWord "inf" unsigned).map (Json.null, ·)
    | 'n' :: _ => (takeWord "nan" unsigned).map (Json.null, ·)
    | _ => readDecimal cs

/-! ## Moments -/

/-- The name of the single member that a moment reads as. -/
def momentName : String := "$__toml_private_datetime"

/-- Reads exactly `count` digits whose value is from `least` to `greatest`. -/
def readField (count least greatest : Nat) : Reader Nat := fun cs =>
  let digits := cs.take count
  if digits.length = count ∧ digits.all Char.isDigit then
    let value := Decimal.digitsValue 0 digits
    if least ≤ value ∧ value ≤ greatest then some (value, cs.drop count) else none
  else none

/-- The number `n` in at least `width` digits. -/
def padded (width n : Nat) : List Char :=
  let digits := Nat.toDigits 10 n
  List.replicate (width - digits.length) '0' ++ digits

/-- The year has a 29th of February. -/
def isLeapYear (year : Nat) : Bool :=
  year % 4 = 0 && (year % 100 ≠ 0 || year % 400 = 0)

/-- The number of days of a month. -/
def daysOfMonth (year month : Nat) : Nat :=
  if month = 2 then if isLeapYear year then 29 else 28
  else if month = 4 ∨ month = 6 ∨ month = 9 ∨ month = 11 then 30
  else 31

def takeChar (expected : Char) : List Char → Option (List Char)
  | c :: rest => if c = expected then some rest else none
  | [] => none

/-- Reads a date and answers its text. -/
def readDate : Reader (List Char) := fun cs => do
  let (year, cs) ← readField 4 0 9999 cs
  let (month, cs) ← readField 2 1 12 (← takeChar '-' cs)
  let (day, cs) ← readField 2 1 (daysOfMonth year month) (← takeChar '-' cs)
  return (padded 4 year ++ '-' :: padded 2 month ++ '-' :: padded 2 day, cs)

/-- The text of a fraction of a second: nine digits at most, and no zeros at the end. -/
def fractionText (digits : List Char) : List Char :=
  match ((digits.take 9).reverse.dropWhile (· = '0')).reverse with
  | [] => []
  | digits => '.' :: digits

/-- Reads a time of the day and answers its text. -/
def readTime : Reader (List Char) := fun cs => do
  let (hour, cs) ← readField 2 0 23 cs
  let (minute, cs) ← readField 2 0 59 (← takeChar ':' cs)
  let (second, cs) ← readField 2 0 60 (← takeChar ':' cs)
  let text := padded 2 hour ++ ':' :: padded 2 minute ++ ':' :: padded 2 second
  match cs with
  | '.' :: rest =>
    let (digits, rest) := Decimal.takeDigits rest
    if digits.isEmpty then none else return (text ++ fractionText digits, rest)
  | cs => return (text, cs)

/-- Reads the offset that may follow a date with a time, and answers its text. -/
def readOffset (cs : List Char) : Option (List Char × List Char) :=
  match cs with
  | 'Z' :: rest | 'z' :: rest => some (['Z'], rest)
  | sign :: rest =>
    if sign = '+' ∨ sign = '-' then do
      let (hour, rest) ← readField 2 0 23 rest
      let (minute, rest) ← readField 2 0 59 (← takeChar ':' rest)
      let shown := if hour = 0 ∧ minute = 0 then '+' else sign
      return (shown :: padded 2 hour ++ ':' :: padded 2 minute, rest)
    else some ([], cs)
  | [] => some ([], [])

/-- Reads a moment and answers its text. A space after a date belongs to the moment only if a
time follows. -/
def readMomentText (cs : List Char) : Option (List Char × List Char) :=
  match readDate cs with
  | none => readTime cs
  | some (date, rest) =>
    match rest with
    | [] => some (date, rest)
    | c :: after =>
      if c = 'T' ∨ c = 't' ∨ c = ' ' then
        match readTime after with
        | none => some (date, rest)
        | some (time, rest) => do
          let (offset, rest) ← readOffset rest
          return (date ++ 'T' :: time ++ offset, rest)
      else some (date, rest)

def readMoment : Reader Json := fun cs =>
  (readMomentText cs).map fun (text, rest) =>
    (.object [(momentName, .string (String.ofList text))], rest)

def readNumberOrMoment (cs : List Char) : Option (Json × List Char) :=
  match readMoment cs with
  | some read => some read
  | none => readNumber cs

end ServiceHost.Toml
