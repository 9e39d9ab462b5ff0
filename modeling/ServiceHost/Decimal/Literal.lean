import ServiceHost.Decimal.Binary64

/-!
# Decimal literals — texts that stand for doubles

A literal is a sign, digits with at most one point, and an exponent; at least one digit stands
on one side of the point. It denotes the double nearest to the decimal it spells, which is
infinite when the decimal is beyond the largest double.
-/

set_option autoImplicit false

namespace ServiceHost.Decimal

/-- The value of a run of ASCII digits read after `start`. -/
def digitsValue (start : Nat) (digits : List Char) : Nat :=
  digits.foldl (fun value c => value * 10 + (c.toNat - '0'.toNat)) start

/-- Splits off a sign; `true` stands for minus. -/
def takeSign : List Char → Bool × List Char
  | '-' :: rest => (true, rest)
  | '+' :: rest => (false, rest)
  | rest => (false, rest)

/-- The longest run of ASCII digits in front, and what follows it. -/
def takeDigits (cs : List Char) : List Char × List Char :=
  (cs.takeWhile Char.isDigit, cs.dropWhile Char.isDigit)

/-- The exponent that ends a literal: nothing, or a mark, a sign and at least one digit. -/
def readExponent? : List Char → Option Int
  | [] => some 0
  | mark :: rest =>
    if mark = 'e' ∨ mark = 'E' then
      let (negative, rest) := takeSign rest
      let (digits, rest) := takeDigits rest
      if digits.isEmpty || !rest.isEmpty then none
      else
        let magnitude : Int := digitsValue 0 digits
        some (if negative then -magnitude else magnitude)
    else none

/-- The double that the whole of `cs` spells. -/
def read? (cs : List Char) : Option Binary64 := do
  let (negative, cs) := takeSign cs
  let (whole, cs) := takeDigits cs
  let (fraction, cs) := match cs with
    | '.' :: rest => takeDigits rest
    | rest => ([], rest)
  let exponent ← readExponent? cs
  if whole.isEmpty && fraction.isEmpty then none
  else
    let digits := digitsValue (digitsValue 0 whole) fraction
    some (Binary64.ofDecimal negative digits (exponent - fraction.length))

end ServiceHost.Decimal
