import ServiceHost.Json.Basic
import ServiceHost.Decimal.Literal
import ServiceHost.Text.Bytes

/-!
# JSON lexemes — strings, numbers and words at the front of a text

A reader takes the characters that are left and answers a value with the characters after it, or
the **kind of fault**: the text ended early, it is not JSON, or it is JSON of another shape than
was asked for. Which of two faults is answered is fixed by reading strictly from left to right.

A number is read in two roundings, as `digits` and then `digits · 10^k`: its digits are gathered
into a 64-bit significand, digits beyond that only count, and the power of ten is itself a
double. `Literal` (`ServiceHost/Decimal`) is the reader that rounds once.
-/

set_option autoImplicit false

namespace ServiceHost.Json

/-- Why a text could not be read. -/
inductive Fault where
  /-- The text ended before the value did. -/
  | unfinished
  /-- The text is not JSON. -/
  | malformed
  /-- The text is JSON of another type or shape than was asked for. -/
  | mismatch
deriving DecidableEq, Repr

/-- Reads an `α` from the front of a text. -/
abbrev Reader (α : Type) := List Char → Except Fault (α × List Char)

/-- The four characters that may stand between lexemes. -/
def isSpace (c : Char) : Bool :=
  c = ' ' || c = '\n' || c = '\t' || c = '\r'

/-- The text from its first lexeme on. -/
def skipSpace (cs : List Char) : List Char :=
  cs.dropWhile isSpace

theorem skipSpace_cons_of_not_isSpace {c : Char} {rest : List Char} (h : isSpace c = false) :
    skipSpace (c :: rest) = c :: rest := by
  simp [skipSpace, List.dropWhile, h]

def expectWord : (word cs : List Char) → Except Fault (List Char)
  | [], cs => .ok cs
  | _ :: _, [] => .error .unfinished
  | w :: word, c :: cs => if c = w then expectWord word cs else .error .malformed

/-! ## Strings -/

/-- The value of a hexadecimal digit of either case. -/
def hexValue? (c : Char) : Option Nat :=
  if '0' ≤ c ∧ c ≤ '9' then some (c.toNat - '0'.toNat)
  else if 'a' ≤ c ∧ c ≤ 'f' then some (c.toNat - 'a'.toNat + 10)
  else if 'A' ≤ c ∧ c ≤ 'F' then some (c.toNat - 'A'.toNat + 10)
  else none

/-- Four hexadecimal digits. Fewer than four **bytes** left is the end of the text, whatever
they are. -/
def readHex4 : Reader Nat
  | a :: b :: c :: d :: rest =>
    match hexValue? a, hexValue? b, hexValue? c, hexValue? d with
    | some a, some b, some c, some d => .ok (((a * 16 + b) * 16 + c) * 16 + d, rest)
    | _, _, _, _ => .error .malformed
  | cs => if Text.byteCount cs < 4 then .error .unfinished else .error .malformed

/-- The character after `\u`: a code point, or a pair of surrogates that makes one. -/
def readUnicodeEscape (cs : List Char) : Except Fault (Char × List Char) :=
  match readHex4 cs with
  | .error fault => .error fault
  | .ok (unit, rest) =>
    if 0xdc00 ≤ unit ∧ unit ≤ 0xdfff then .error .malformed
    else if unit < 0xd800 ∨ 0xdbff < unit then .ok (Char.ofNat unit, rest)
    else match rest with
      | [] => .error .unfinished
      | '\\' :: [] => .error .unfinished
      | '\\' :: 'u' :: rest =>
        match readHex4 rest with
        | .error fault => .error fault
        | .ok (low, rest) =>
          if low < 0xdc00 ∨ 0xdfff < low then .error .malformed
          else .ok (Char.ofNat ((unit - 0xd800) * 0x400 + (low - 0xdc00) + 0x10000), rest)
      | _ => .error .malformed

/-- The character after a backslash. -/
def readEscape : List Char → Except Fault (Char × List Char)
  | [] => .error .unfinished
  | c :: rest =>
    if c = '"' then .ok ('"', rest)
    else if c = '\\' then .ok ('\\', rest)
    else if c = '/' then .ok ('/', rest)
    else if c = 'b' then .ok ('\x08', rest)
    else if c = 'f' then .ok ('\x0c', rest)
    else if c = 'n' then .ok ('\n', rest)
    else if c = 'r' then .ok ('\r', rest)
    else if c = 't' then .ok ('\t', rest)
    else if c = 'u' then readUnicodeEscape rest
    else .error .malformed

/-- The next character of a string, or `none` at its closing quote. -/
def readStringChar : List Char → Except Fault (Option Char × List Char)
  | [] => .error .unfinished
  | c :: rest =>
    if c = '"' then .ok (none, rest)
    else if c = '\\' then (readEscape rest).map fun (c, rest) => (some c, rest)
    else if c.toNat < 0x20 then .error .malformed
    else .ok (some c, rest)

theorem readHex4_length {cs rest : List Char} {n : Nat} (h : readHex4 cs = .ok (n, rest)) :
    rest.length < cs.length := by
  unfold readHex4 at h
  split at h
  · split at h
    · simp only [Except.ok.injEq, Prod.mk.injEq] at h
      obtain ⟨-, rfl⟩ := h
      simp only [List.length_cons]
      omega
    · cases h
  · split at h <;> cases h

theorem readUnicodeEscape_length {cs rest : List Char} {c : Char}
    (h : readUnicodeEscape cs = .ok (c, rest)) : rest.length < cs.length := by
  unfold readUnicodeEscape at h
  split at h
  · contradiction
  · rename_i unit after hhex
    have shorter := readHex4_length hhex
    split at h
    · contradiction
    · split at h
      · simp only [Except.ok.injEq, Prod.mk.injEq] at h
        obtain ⟨-, rfl⟩ := h
        exact shorter
      · split at h
        · contradiction
        · contradiction
        · split at h
          · contradiction
          · rename_i hlow
            have := readHex4_length hlow
            split at h
            · contradiction
            · simp only [Except.ok.injEq, Prod.mk.injEq] at h
              obtain ⟨-, rfl⟩ := h
              simp only [List.length_cons] at shorter
              omega
        · contradiction

theorem readEscape_length {cs rest : List Char} {c : Char} (h : readEscape cs = .ok (c, rest)) :
    rest.length < cs.length := by
  unfold readEscape at h
  split at h
  · contradiction
  · repeat' split at h
    all_goals try contradiction
    all_goals try
      simp only [Except.ok.injEq, Prod.mk.injEq] at h
      obtain ⟨-, rfl⟩ := h
      simp
    have := readUnicodeEscape_length h
    simp only [List.length_cons]
    omega

theorem readStringChar_length {cs rest : List Char} {c : Option Char}
    (h : readStringChar cs = .ok (c, rest)) : rest.length < cs.length := by
  unfold readStringChar at h
  split at h
  · cases h
  · rename_i first others
    split at h
    · cases h
      simp
    · split at h
      · cases hescape : readEscape others with
        | error fault => rw [hescape] at h; cases h
        | ok pair =>
          rw [hescape] at h
          cases h
          have := readEscape_length hescape
          simp only [List.length_cons]
          omega
      · split at h
        · cases h
        · cases h
          simp

/-- The characters of a string after its opening quote, up to and with the closing one. -/
def readStringBody (cs : List Char) : Except Fault (List Char × List Char) :=
  match h : readStringChar cs with
  | .error fault => .error fault
  | .ok (none, rest) => .ok ([], rest)
  | .ok (some c, rest) =>
    have := readStringChar_length h
    match readStringBody rest with
    | .error fault => .error fault
    | .ok (text, rest) => .ok (c :: text, rest)
termination_by cs.length

/-- The string after its opening quote. -/
def readStringRest (cs : List Char) : Except Fault (String × List Char) :=
  (readStringBody cs).map fun (text, rest) => (String.ofList text, rest)

/-! ## Numbers -/

/-- The greatest significand a number gathers. -/
def significandLimit : Nat := UInt64.size - 1

/-- Appends digits to a significand while they fit; the second part is the digits from the first
one that did not. -/
def gather : (significand : Nat) → (digits : List Char) → Nat × List Char
  | significand, [] => (significand, [])
  | significand, c :: digits =>
    let next := significand * 10 + (c.toNat - '0'.toNat)
    if significandLimit < next then (significand, c :: digits) else gather next digits

/-- The power `10^k` as a double. -/
def powerOfTen (k : Nat) : Binary64 :=
  Binary64.ofRatio false (Nat.pow 10 k) 1

/-- The product `x · 10^exponent` in rounded steps of at most 308 places; `none` beyond the
doubles. -/
def scaleReal (x : Binary64) (exponent : Int) : Option Binary64 :=
  if exponent.natAbs ≤ 308 then
    if 0 ≤ exponent then
      let scaled := x.mul (powerOfTen exponent.toNat)
      if scaled.isFinite then some scaled else none
    else some (x.div (powerOfTen exponent.natAbs))
  else if x.isZero then some x
  else if 0 ≤ exponent then none
  else scaleReal (x.div (powerOfTen 308)) (exponent + 308)
termination_by (-exponent).toNat

/-- The double of a sign, a significand and a power of ten. -/
def realOfParts (negative : Bool) (significand : Nat) (exponent : Int) : Except Fault Json :=
  match scaleReal (Binary64.ofRatio false significand 1) exponent with
  | none => .error .malformed
  | some x => .ok (.real (if negative then x.neg else x))

/-- The exponent after its mark, and what follows it. An exponent beyond 32 bits is out of range
when it asks for more than zero and answers zero otherwise. -/
def readExponent (negative : Bool) (significand : Nat) (exponent : Int) (cs : List Char) :
    Except Fault (Json × List Char) :=
  let (down, cs) := Decimal.takeSign cs
  match cs with
  | [] => .error .unfinished
  | c :: _ =>
    if !c.isDigit then .error .malformed
    else
      let (digits, rest) := Decimal.takeDigits cs
      let magnitude := Decimal.digitsValue 0 digits
      if Nat.pow 2 31 - 1 < magnitude then
        if significand ≠ 0 ∧ !down then .error .malformed
        else .ok (.real (Binary64.zero negative), rest)
      else
        let exponent := if down then exponent - magnitude else exponent + magnitude
        (realOfParts negative significand exponent).map (·, rest)

/-- The exponent of a number, if it has one. -/
def readExponent? (negative : Bool) (significand : Nat) (exponent : Int) (cs : List Char) :
    Except Fault (Json × List Char) :=
  match cs with
  | 'e' :: rest | 'E' :: rest => readExponent negative significand exponent rest
  | _ => (realOfParts negative significand exponent).map (·, cs)

/-- The fraction after the point, and the exponent after that. -/
def readFraction (negative : Bool) (significand : Nat) (exponent : Int) (cs : List Char) :
    Except Fault (Json × List Char) :=
  let (digits, rest) := Decimal.takeDigits cs
  if digits.isEmpty then
    if rest.isEmpty then .error .unfinished else .error .malformed
  else
    let (significand, unused) := gather significand digits
    readExponent? negative significand (exponent - (digits.length - unused.length : Nat)) rest

/-- A number whose sign has been read. An integer stays one as long as 64 bits hold it; minus
zero and everything larger is a double. -/
def readUnsigned (negative : Bool) (cs : List Char) : Except Fault (Json × List Char) :=
  match cs with
  | [] => .error .unfinished
  | first :: _ =>
    let (digits, rest) := Decimal.takeDigits cs
    if digits.isEmpty then .error .malformed
    else if first = '0' ∧ digits.length ≠ 1 then .error .malformed
    else
      let (significand, unused) := gather 0 digits
      match rest with
      | '.' :: rest => readFraction negative significand unused.length rest
      | 'e' :: rest | 'E' :: rest => readExponent negative significand unused.length rest
      | _ =>
        if !unused.isEmpty then
          (realOfParts negative significand unused.length).map (·, rest)
        else if !negative then .ok (.integer significand, rest)
        else if significand = 0 ∨ Nat.pow 2 63 < significand then
          .ok (.real ((Binary64.ofRatio false significand 1).neg), rest)
        else .ok (.integer (-significand), rest)

/-- A number from its first character on. -/
def readNumber : List Char → Except Fault (Json × List Char)
  | '-' :: rest => readUnsigned true rest
  | cs => readUnsigned false cs

/-- A number may start with `c`. -/
def startsNumber (c : Char) : Bool :=
  c = '-' || c.isDigit

end ServiceHost.Json
