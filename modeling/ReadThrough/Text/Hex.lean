/-! # Bytes as text

Every byte is written with two digits of base sixteen. -/

namespace ReadThrough.Hex

/-- A digit of base sixteen. -/
def digit (n : Nat) : Char :=
  if n < 10 then Char.ofNat (48 + n) else Char.ofNat (87 + n)

/-- The digits of bytes. -/
def encode (bs : List UInt8) : List Char :=
  bs.flatMap fun b => [digit (b.toNat / 16), digit (b.toNat % 16)]

/-- The value of a digit. -/
def value? (c : Char) : Option Nat :=
  if c.isDigit then some (c.toNat - 48)
  else if 'a' ≤ c ∧ c ≤ 'f' then some (c.toNat - 87)
  else if 'A' ≤ c ∧ c ≤ 'F' then some (c.toNat - 55)
  else none

/-- The bytes of digits. -/
def decode? : List Char → Option (List UInt8)
  | [] => some []
  | a :: b :: rest => do
    let byte := (← value? a) * 16 + (← value? b)
    some (UInt8.ofNat byte :: (← decode? rest))
  | _ => none

/-- The digits of bytes as a string. -/
def text (bs : List UInt8) : String := String.ofList (encode bs)

end ReadThrough.Hex
