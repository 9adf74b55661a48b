import ReadThrough.Binary

/-! # Shortest decimals

The decimal text of a floating-point number: the fewest digits that still round to it, and of
those the nearest.

* **Interval** (`Interval`).  The reals that round to a number, as fractions over one denominator;
  the ends belong to it when the mantissa is even.
* **Digits** (`digits`).  For one digit, two digits and so on, the two neighbours of the number on
  that decimal grid are tested; the first grid with a hit wins.
* **Layout** (`Layout`).  Which exponents are written positionally, and how the others are
  written. -/

namespace ReadThrough.Binary

/-- A positive number `value / den` and the reals from `low / den` to `high / den` that round to
it. -/
structure Interval where
  low : Nat
  value : Nat
  high : Nat
  den : Nat
  closed : Bool

/-- The interval of the positive number `m · 2 ^ e`. -/
def Format.interval (f : Format) (m : Nat) (e : Int) : Interval :=
  let (a, b) := ratio 1 (e - 2)
  let below := if m = 1 <<< (f.precision - 1) ∧ f.minExponent < e then 1 else 2
  { low := (4 * m - below) * a, value := 4 * m * a, high := (4 * m + 2) * a, den := b,
    closed := m % 2 = 0 }

namespace Interval

/-- Whether the fraction `n / d` rounds to the number. -/
def holds (i : Interval) (n d : Nat) : Bool :=
  if i.closed then i.low * d ≤ n * i.den && n * i.den ≤ i.high * d
  else i.low * d < n * i.den && n * i.den < i.high * d

/-- The exponent `x` with `10 ^ x ≤ value < 10 ^ (x + 1)`. -/
def magnitude (i : Interval) : Int :=
  if i.den ≤ i.value then ((Nat.toDigits 10 (i.value / i.den)).length : Int) - 1
  else
    let j := (Nat.toDigits 10 (i.den / i.value)).length
    if i.den ≤ i.value * Nat.pow 10 (j - 1) then 1 - (j : Int) else -(j : Int)

/-- The point of the grid of step `10 ^ x` that lies in the interval, the nearer one of two; it is
given as the multiple of the step. -/
def onGrid (i : Interval) (x : Int) : Option Nat :=
  let up := Nat.pow 10 x.toNat
  let down := Nat.pow 10 (-x).toNat
  let below := i.value * down / (i.den * up)
  let above := below + 1
  match i.holds (below * up) down, i.holds (above * up) down with
  | true, true =>
    let twice := 2 * (i.value * down)
    let middle := (below + above) * (i.den * up)
    some (if twice < middle then below
      else if middle < twice then above
      else if below % 2 = 0 then below else above)
  | true, false => some below
  | false, true => some above
  | false, false => none

/-- The first hit among grids of `n`, `n + 1`, … digits, and the exponent of its last digit. -/
def search (i : Interval) (x : Int) : Nat → Nat → Nat × Int
  | _, 0 => (i.value / i.den, 0)
  | n, fuel + 1 =>
    match i.onGrid (x + 1 - n) with
    | some d => (d, x + 1 - n)
    | none => i.search x (n + 1) fuel

end Interval

/-- A decimal: the digits `d₀ d₁ …` and the exponent of the first one, `d₀.d₁… · 10 ^ exponent`. -/
structure Decimal where
  digits : List Char
  exponent : Int
deriving DecidableEq, Repr

/-- The decimal `n · 10 ^ x` without zeros at its end. -/
def Decimal.ofScaled (n : Nat) (x : Int) : Decimal :=
  let ds := Nat.toDigits 10 n
  ⟨(ds.reverse.dropWhile (· == '0')).reverse, x + ds.length - 1⟩

/-- The shortest decimal that rounds to the positive number `m · 2 ^ e`.  No number of either
format needs more than 17 digits. -/
def Format.shortest (f : Format) (m : Nat) (e : Int) : Decimal :=
  let i := f.interval m e
  let (n, x) := i.search i.magnitude 1 17
  .ofScaled n x

/-- Which exponents of the first digit are written positionally. -/
structure Layout where
  least : Int
  greatest : Int
  /-- Whether a positive exponent gets a sign. -/
  plus : Bool := true

namespace Decimal

/-- A decimal without an exponent, with at least one digit on both sides of the point. -/
def positional (d : Decimal) : List Char :=
  if d.exponent < 0 then
    '0' :: '.' :: (List.replicate (-d.exponent - 1).toNat '0' ++ d.digits)
  else
    let whole := d.exponent.toNat + 1
    let fraction := d.digits.drop whole
    (d.digits.take whole ++ List.replicate (whole - d.digits.length) '0') ++
      '.' :: (if fraction.isEmpty then ['0'] else fraction)

/-- A decimal with an exponent. -/
def scientific (plus : Bool) (d : Decimal) : List Char :=
  let mantissa := match d.digits with
    | first :: second :: rest => first :: '.' :: second :: rest
    | ds => ds
  let sign := if d.exponent < 0 then ['-'] else if plus then ['+'] else []
  mantissa ++ 'e' :: (sign ++ Nat.toDigits 10 d.exponent.natAbs)

/-- The text of a decimal. -/
def text (l : Layout) (d : Decimal) : List Char :=
  if l.least ≤ d.exponent ∧ d.exponent ≤ l.greatest then d.positional else d.scientific l.plus

end Decimal

/-- The text of a number, if it is finite. -/
def text? (f : Format) (l : Layout) : Binary → Option (List Char)
  | finite s m e =>
    let body := if m = 0 then ['0', '.', '0'] else (f.shortest m e).text l
    some (if s then '-' :: body else body)
  | _ => none

end ReadThrough.Binary
