/-!
# Binary64 — double-precision numbers as exact dyadic fractions

A finite double is `±m · 2^e` with `m < 2^53`. Holding `m` and `e` instead of a machine word
makes every operation here exact integer arithmetic followed by **one** rounding, so what a
decimal text reads as, and which decimal is the shortest that reads back, are facts about
natural numbers. Nothing in this library computes on machine floats.
-/

set_option autoImplicit false

namespace ServiceHost

/-- A double: `finite` stands for `±mantissa · 2^exponent`. -/
inductive Binary64 where
  | finite (negative : Bool) (mantissa : Nat) (exponent : Int)
  | infinite (negative : Bool)
  | nan
deriving DecidableEq, Repr, Inhabited

namespace Binary64

/-- The exponent of the smallest positive double. -/
def minExponent : Int := -1074

/-- The exponent of the largest finite double. -/
def maxExponent : Int := 971

/-- Zero of either sign. -/
def zero (negative : Bool) : Binary64 := .finite negative 0 minExponent

/-- The quotient `n / d` rounded to the nearest integer, a half to the even one. -/
def roundQuotient (n d : Nat) : Nat :=
  let q := n / d
  let r := n % d
  if 2 * r < d then q
  else if d < 2 * r then q + 1
  else q + q % 2

/-- The quotient `n / d` divided by `2^e`, as a fraction again. -/
def scaleDown (n d : Nat) (e : Int) : Nat × Nat :=
  if 0 ≤ e then (n, d * Nat.pow 2 e.toNat) else (n * Nat.pow 2 (-e).toNat, d)

/-- The double nearest to `±n / d`, a half to the one with the even mantissa. -/
def ofRatio (negative : Bool) (n d : Nat) : Binary64 :=
  if n = 0 then zero negative
  else
    let guess : Int := max minExponent ((Nat.log2 n : Int) - Nat.log2 d - 53)
    let (n₀, d₀) := scaleDown n d guess
    let e := if Nat.pow 2 53 ≤ n₀ / d₀ then guess + 1 else guess
    let (n₁, d₁) := scaleDown n d e
    let m := roundQuotient n₁ d₁
    let (m, e) := if m = Nat.pow 2 53 then (Nat.pow 2 52, e + 1) else (m, e)
    if maxExponent < e then .infinite negative else .finite negative m e

/-- The double nearest to `±digits · 10^exponent`. An exponent far outside the range of doubles
is answered at once, so that no text can ask for a huge power of ten. -/
def ofDecimal (negative : Bool) (digits : Nat) (exponent : Int) : Binary64 :=
  let magnitude := exponent + (Nat.log2 digits : Int)
  if digits = 0 then zero negative
  else if 2000 < exponent then .infinite negative
  else if magnitude < -2000 then zero negative
  else if 0 ≤ exponent then ofRatio negative (digits * Nat.pow 10 exponent.toNat) 1
  else ofRatio negative digits (Nat.pow 10 (-exponent).toNat)

/-- The magnitude as a fraction; what is not finite has none, and answers zero. -/
def ratio : Binary64 → Nat × Nat
  | .finite _ m e => if 0 ≤ e then (m * Nat.pow 2 e.toNat, 1) else (m, Nat.pow 2 (-e).toNat)
  | _ => (0, 1)

def isNegative : Binary64 → Bool
  | .finite negative _ _ | .infinite negative => negative
  | .nan => false

def isFinite : Binary64 → Bool
  | .finite .. => true
  | _ => false

def isZero : Binary64 → Bool
  | .finite _ m _ => m = 0
  | _ => false

/-- The number with the other sign. -/
def neg : Binary64 → Binary64
  | .finite negative m e => .finite (!negative) m e
  | .infinite negative => .infinite (!negative)
  | .nan => .nan

/-- The rounded product of two finite doubles. -/
def mul (x y : Binary64) : Binary64 :=
  let (n, d) := x.ratio
  let (n', d') := y.ratio
  ofRatio (x.isNegative != y.isNegative) (n * n') (d * d')

/-- The rounded quotient of two finite doubles, the second of them not zero. -/
def div (x y : Binary64) : Binary64 :=
  let (n, d) := x.ratio
  let (n', d') := y.ratio
  ofRatio (x.isNegative != y.isNegative) (n * d') (d * n')

/-- Rounding to the nearest integer errs by a half at most. -/
theorem roundQuotient_error (n : Nat) {d : Nat} (hd : 0 < d) :
    2 * (roundQuotient n d * d) ≤ 2 * n + d ∧ 2 * n ≤ 2 * (roundQuotient n d * d) + d := by
  have split := Nat.div_add_mod n d
  have small := Nat.mod_lt n hd
  rw [Nat.mul_comm] at split
  have parity : n / d % 2 = 0 ∨ n / d % 2 = 1 := by omega
  simp only [roundQuotient]
  split
  · omega
  · split
    · rw [Nat.add_mul]; omega
    · rcases parity with h | h <;> rw [h, Nat.add_mul] <;> omega

end Binary64

end ServiceHost
