import ReadThrough.Binary

/-! # Reading decimals

Decimal text as the nearest floating-point number.  A sign may stand in front; then come digits
with a point at any place and an exponent, or one of the words for the infinite and the undefined
number in any case of letters. -/

namespace ReadThrough.Binary

/-- Why a text is not a decimal. -/
inductive DecimalProblem where
  | empty
  | badLiteral
deriving DecidableEq, Repr

/-- The wording of a problem. -/
def DecimalProblem.message : DecimalProblem → String
  | empty => "cannot parse float from empty string"
  | badLiteral => "invalid float literal"

/-- The number of a format nearest to `± n · 10 ^ x`; far beyond the range of every format the
value does not matter any more. -/
def Format.ofScaled (f : Format) (negative : Bool) (n : Nat) (x : Int) : Binary :=
  let size := x + (Nat.toDigits 10 n).length
  if n = 0 ∨ size < -400 then f.zero negative
  else if 400 < size then infinite negative
  else f.round negative (n * Nat.pow 10 x.toNat) (Nat.pow 10 (-x).toNat)

/-- The value of the exponent that follows a number, zero if nothing follows. -/
def exponent? : List Char → Option Int
  | [] => some 0
  | c :: rest =>
    if c = 'e' ∨ c = 'E' then
      let (negative, ds) := match rest with
        | '-' :: ds => (true, ds)
        | '+' :: ds => (false, ds)
        | ds => (false, ds)
      if ds.isEmpty ∨ !ds.all Char.isDigit then none
      else
        let n : Int := Nat.ofDigitChars 10 ds 0
        some (if negative then -n else n)
    else none

/-- The number of a text without sign. -/
def Format.magnitude? (f : Format) (negative : Bool) (cs : List Char) : Option Binary :=
  let word := String.ofList (cs.map Char.toLower)
  if word = "inf" ∨ word = "infinity" then some (infinite negative)
  else if word = "nan" then some nan
  else
    let whole := cs.takeWhile Char.isDigit
    let (fraction, rest) := match cs.dropWhile Char.isDigit with
      | '.' :: more => (more.takeWhile Char.isDigit, more.dropWhile Char.isDigit)
      | rest => ([], rest)
    if whole.isEmpty ∧ fraction.isEmpty then none
    else
      (exponent? rest).map fun x =>
        f.ofScaled negative (Nat.ofDigitChars 10 (whole ++ fraction) 0) (x - fraction.length)

/-- The number of a text. -/
def Format.ofText (f : Format) (cs : List Char) : Except DecimalProblem Binary :=
  let found := match cs with
    | '-' :: rest => f.magnitude? true rest
    | '+' :: rest => f.magnitude? false rest
    | cs => f.magnitude? false cs
  match found with
  | some b => .ok b
  | none => .error (if cs.isEmpty then .empty else .badLiteral)

end ReadThrough.Binary
