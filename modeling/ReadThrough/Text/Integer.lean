/-! # Integers in text

Decimal text of integers.

* **Writing** (`decimal`).  The digits without zeros in front, after a minus sign if there is one.
* **Reading** (`readNat`, `readInt`).  An integer within bounds.  One sign may stand in front; the
  first character that is no digit, or the first digit with which the value leaves its bounds,
  decides the error. -/

namespace ReadThrough.Text

/-- The decimal digits of an integer, after a minus sign if it is negative. -/
def decimal (n : Int) : List Char :=
  if n < 0 then '-' :: Nat.toDigits 10 n.natAbs else Nat.toDigits 10 n.natAbs

/-- The decimal text of an integer. -/
def decimalText (n : Int) : String := String.ofList (decimal n)

/-- Why a text is not an integer within its bounds. -/
inductive IntegerProblem where
  | empty
  | badDigit
  | tooLarge
  | tooSmall
deriving DecidableEq, Repr, Inhabited

namespace IntegerProblem

/-- The wording of a problem. -/
def message : IntegerProblem → String
  | empty => "cannot parse integer from empty string"
  | badDigit => "invalid digit found in string"
  | tooLarge => "number too large to fit in target type"
  | tooSmall => "number too small to fit in target type"

end IntegerProblem

/-- Append decimal digits to a number that must not exceed `limit`. -/
def digitsUpTo (limit : Nat) (beyond : IntegerProblem) : Nat → List Char →
    Except IntegerProblem Nat
  | n, [] => .ok n
  | n, c :: cs =>
    if c.isDigit then
      let next := n * 10 + (c.toNat - 48)
      if limit < next then .error beyond else digitsUpTo limit beyond next cs
    else .error .badDigit

/-- An integer from `0` to `limit`; a plus sign may stand in front. -/
def readNat (limit : Nat) (cs : List Char) : Except IntegerProblem Nat :=
  match cs with
  | [] => .error .empty
  | ['+'] => .error .badDigit
  | '+' :: rest => digitsUpTo limit .tooLarge 0 rest
  | cs => digitsUpTo limit .tooLarge 0 cs

/-- An integer of a signed word with `bits` bits. -/
def readInt (bits : Nat) (cs : List Char) : Except IntegerProblem Int :=
  match cs with
  | [] => .error .empty
  | ['+'] => .error .badDigit
  | ['-'] => .error .badDigit
  | '-' :: rest => (digitsUpTo (Nat.pow 2 (bits - 1)) .tooSmall 0 rest).map fun n => -(n : Int)
  | '+' :: rest => (digitsUpTo (Nat.pow 2 (bits - 1) - 1) .tooLarge 0 rest).map fun n => (n : Int)
  | cs => (digitsUpTo (Nat.pow 2 (bits - 1) - 1) .tooLarge 0 cs).map fun n => (n : Int)

end ReadThrough.Text
