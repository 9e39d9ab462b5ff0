import ServiceHost.Decimal.Binary64

/-!
# Shortest decimals — the fewest digits that read back

Many decimals round to one double. The text of a double uses the fewest digits that any of them
has, and among those the one nearest to the double. A decimal of `n` digits that rounds to the
double exists exactly when one of the double's **two neighbours** on the grid of `n`-digit
decimals does, so it is enough to test those two for `n = 1, 2, …`; seventeen digits always
suffice.
-/

set_option autoImplicit false

namespace ServiceHost

namespace Binary64

/-- The place of the leading decimal digit of `n / d`: the `k` with `10^k ≤ n/d < 10^(k+1)`. -/
def leadingPlace (n d : Nat) : Int :=
  if d ≤ n then ((Nat.toDigits 10 (n / d)).length : Int) - 1
  else -((Nat.toDigits 10 ((d + n - 1) / n - 1)).length : Int)

/-- The reals that round to a double, as quarters of its last binary place: from `low` to `high`
over `scale`, the ends included when the mantissa is even. -/
structure Interval where
  low : Nat
  high : Nat
  scale : Nat
  closed : Bool

/-- The interval of `m · 2^e`. Below a power of two the doubles are twice as dense, so there the
lower end lies half as far away. -/
def interval (m : Nat) (e : Int) : Interval :=
  let below := if m = Nat.pow 2 52 ∧ minExponent < e then 1 else 2
  let factor := Nat.pow 2 e.toNat
  { low := (4 * m - below) * factor
    high := (4 * m + 2) * factor
    scale := 4 * Nat.pow 2 (-e).toNat
    closed := m % 2 = 0 }

/-- The fraction `n / d` rounds to the double. -/
def Interval.holds (i : Interval) (n d : Nat) : Bool :=
  if i.closed then i.low * d ≤ n * i.scale && n * i.scale ≤ i.high * d
  else i.low * d < n * i.scale && n * i.scale < i.high * d

/-- The decimal `digits · 10^place` as a fraction. -/
def decimalRatio (digits : Nat) (place : Int) : Nat × Nat :=
  if 0 ≤ place then (digits * Nat.pow 10 place.toNat, 1) else (digits, Nat.pow 10 (-place).toNat)

/-- The neighbour of `n / d` on the grid of multiples of `10^place` that rounds to the double:
the nearer one if both do, and the even one if they are equally near. -/
def onGrid? (i : Interval) (n d : Nat) (place : Int) : Option Nat :=
  let (n', d') := if 0 ≤ place then (n, d * Nat.pow 10 place.toNat) else (n * Nat.pow 10 (-place).toNat, d)
  let lower := n' / d'
  let hit (digits : Nat) : Bool :=
    let (a, b) := decimalRatio digits place
    digits ≠ 0 && i.holds a b
  match hit lower, hit (lower + 1) with
  | true, true => some (roundQuotient n' d')
  | true, false => some lower
  | false, true => some (lower + 1)
  | false, false => none

/-- The first hit on the grids of `used + 1`, `used + 2`, … digits; `fuel` bounds the number of
grids that are tried. -/
def searchGrids (i : Interval) (n d : Nat) (leading : Int) : (used fuel : Nat) → Nat × Int
  | used, 0 => ((onGrid? i n d (leading - used)).getD 0, leading - used)
  | used, fuel + 1 =>
    let place := leading - used
    match onGrid? i n d place with
    | some digits => (digits, place)
    | none => searchGrids i n d leading (used + 1) fuel

/-- The decimal `digits · 10^place` without trailing zeros; `fuel` bounds their number. -/
def stripZeros : (fuel : Nat) → Nat → Int → Nat × Int
  | 0, digits, place => (digits, place)
  | fuel + 1, digits, place =>
    if digits % 10 = 0 ∧ digits ≠ 0 then stripZeros fuel (digits / 10) (place + 1)
    else (digits, place)

/-- The shortest decimal `digits · 10^place` that rounds to `m · 2^e`. -/
def shortest (m : Nat) (e : Int) : Nat × Int :=
  if m = 0 then (0, 0)
  else
    let (n, d) := (Binary64.finite false m e).ratio
    let (digits, place) := searchGrids (interval m e) n d (leadingPlace n d) 0 17
    stripZeros 20 digits place

end Binary64

/-- How a decimal is laid out as text. -/
structure DecimalLayout where
  /-- The least place of the leading digit that is written positionally. -/
  leastPlace : Int
  /-- The greatest place of the leading digit that is written positionally. -/
  greatestPlace : Int
  /-- The mark before an exponent. -/
  exponentMark : Char
  /-- A positive exponent takes a plus sign. -/
  plusSign : Bool

/-- The text of `digits · 10^place`. Positional text has at least one digit on either side of
the point; text with an exponent has a point only where more than one digit is there. -/
def DecimalLayout.render (layout : DecimalLayout) (digits : Nat) (place : Int) : List Char :=
  let ds := Nat.toDigits 10 digits
  let leading := place + ds.length - 1
  if layout.leastPlace ≤ leading ∧ leading ≤ layout.greatestPlace then
    if 0 ≤ place then ds ++ List.replicate place.toNat '0' ++ ['.', '0']
    else if 0 ≤ leading then
      ds.take (leading + 1).toNat ++ ['.'] ++ ds.drop (leading + 1).toNat
    else ['0', '.'] ++ List.replicate (-leading - 1).toNat '0' ++ ds
  else
    let fraction := match ds.drop 1 with
      | [] => []
      | more => '.' :: more
    let sign := if leading < 0 then ['-'] else if layout.plusSign then ['+'] else []
    ds.take 1 ++ fraction ++ [layout.exponentMark] ++ sign ++ Nat.toDigits 10 leading.natAbs

/-- The text of a finite double in a layout; what is not finite has none. -/
def Binary64.render? (layout : DecimalLayout) : Binary64 → Option (List Char)
  | .finite negative m e =>
    let (digits, place) := Binary64.shortest m e
    some ((if negative then ['-'] else []) ++ layout.render digits place)
  | _ => none

end ServiceHost
