/-! # Binary floating point

Floating-point numbers as exact values, so that every rounding is integer arithmetic.

* **Formats** (`Binary.Format`).  A format has a precision and a range of exponents; `double` and
  `single` are the two formats in use.
* **Numbers** (`Binary`).  A finite number is a sign, a mantissa and a power of two.
* **Rounding** (`Format.round`).  A positive fraction is rounded to the nearest number of the
  format, a tie to the even mantissa, and to infinity beyond the largest number. -/

namespace ReadThrough

/-- A floating-point number: `finite negative m e` is `± m · 2 ^ e`. -/
inductive Binary where
  | nan
  | infinite (negative : Bool)
  | finite (negative : Bool) (mantissa : Nat) (exponent : Int)
deriving DecidableEq, Repr, Inhabited

namespace Binary

/-- How many bits a mantissa has and which exponents it may have. -/
structure Format where
  precision : Nat
  minExponent : Int
  maxExponent : Int
deriving DecidableEq, Repr

/-- The 64-bit format. -/
def double : Format := ⟨53, -1074, 971⟩

/-- The 32-bit format. -/
def single : Format := ⟨24, -149, 104⟩

/-- The fraction `m · 2 ^ e` as numerator and denominator. -/
def ratio (m : Nat) (e : Int) : Nat × Nat :=
  if 0 ≤ e then (m <<< e.toNat, 1) else (m, 1 <<< (-e).toNat)

/-- `num / den` to the nearest natural number, a tie to the even one. -/
def roundDiv (num den : Nat) : Nat :=
  let q := num / den
  let r := num % den
  if 2 * r < den then q
  else if den < 2 * r then q + 1
  else if q % 2 = 0 then q else q + 1

namespace Format

/-- The zero of a format. -/
def zero (f : Format) (negative : Bool) : Binary := finite negative 0 f.minExponent

/-- The exponent at which a positive fraction fills the mantissa of the format, or the smallest
exponent there is. -/
def exponentFor (f : Format) (num den : Nat) : Int :=
  let guess : Int := (Nat.log2 num : Int) - Nat.log2 den - f.precision
  let (a, b) := ratio 1 guess
  let e := if 1 <<< f.precision ≤ num * b / (den * a) then guess + 1 else guess
  max e f.minExponent

/-- The number of the format nearest to `± num / den`. -/
def round (f : Format) (negative : Bool) (num den : Nat) : Binary :=
  if num = 0 then f.zero negative
  else
    let e := f.exponentFor num den
    let (a, b) := ratio 1 e
    let m := roundDiv (num * b) (den * a)
    let (m, e) := if m = 1 <<< f.precision then (1 <<< (f.precision - 1), e + 1) else (m, e)
    if f.maxExponent < e then infinite negative else finite negative m e

/-- The number of the format nearest to an integer. -/
def ofInt (f : Format) (n : Int) : Binary := f.round (n < 0) n.natAbs 1

/-- The number of the format nearest to a number of another one. -/
def convert (f : Format) : Binary → Binary
  | nan => nan
  | infinite s => infinite s
  | finite s m e => let (a, b) := ratio m e; f.round s a b

/-- The rounded sum of two finite numbers; anything else gives `nan`. -/
def add (f : Format) : Binary → Binary → Binary
  | finite s m e, finite t n d =>
    let low := min e d
    let term (negative : Bool) (m : Nat) (e : Int) : Int :=
      let k : Int := (m <<< (e - low).toNat : Nat)
      if negative then -k else k
    let sum := term s m e + term t n d
    let (a, b) := ratio sum.natAbs low
    f.round (if sum = 0 then s && t else sum < 0) a b
  | _, _ => nan

/-- The rounded product of two finite numbers; anything else gives `nan`. -/
def mul (f : Format) : Binary → Binary → Binary
  | finite s m e, finite t n d => let (a, b) := ratio (m * n) (e + d); f.round (s != t) a b
  | _, _ => nan

/-- The rounded quotient of two finite numbers with a divisor other than zero; anything else gives
`nan`. -/
def div (f : Format) : Binary → Binary → Binary
  | finite s m e, finite t n d =>
    if n = 0 then nan
    else let (a, b) := ratio 1 (e - d); f.round (s != t) (m * a) (n * b)
  | _, _ => nan

end Format

/-- The number with the other sign. -/
def neg : Binary → Binary
  | nan => nan
  | infinite s => infinite (!s)
  | finite s m e => finite (!s) m e

/-- Whether a number is a zero of either sign. -/
def isZero : Binary → Bool
  | finite _ m _ => m == 0
  | _ => false

/-- Whether a number is neither infinite nor undefined. -/
def isFinite : Binary → Bool
  | finite .. => true
  | _ => false

/-- The integer next to a number towards zero, kept within `lo` and `hi`; zero for `nan`. -/
def truncate (lo hi : Int) : Binary → Int
  | nan => 0
  | infinite s => if s then lo else hi
  | finite s m e =>
    let (a, b) := ratio m e
    let n : Int := if s then -((a / b : Nat) : Int) else ((a / b : Nat) : Int)
    max lo (min hi n)

end Binary

end ReadThrough
