import ReadThrough.Json
import ReadThrough.Text.Utf8

/-! # Reading JSON

Readers take the start of a byte sequence and give what they read together with the rest.

* **Numerals** (`Numeral`).  The grammar of a number is read first, its value is computed after.
  Digits beyond 64 bits only move the decimal exponent, and the scaled value is rounded at each
  of its (at most three) steps, so a long numeral may miss the nearest number
  (`Numeral.number?`).
* **Nesting.**  A value opens at most `maxDepth` arrays and objects within each other.
* **Skipping** (`skip`).  A value that is not wanted is only checked for its form: neither the
  size of its numbers, nor its nesting, nor the encoding of its strings matters. -/

namespace ReadThrough.Json

/-- What reads a value off the start of some bytes. -/
abbrev Reader (α : Type) := List UInt8 → Option (α × List UInt8)

/-- How many arrays and objects a value may open within each other. -/
def maxDepth : Nat := 127

/-- The byte of an ASCII character. -/
abbrev ascii (c : Char) : UInt8 := c.toUInt8

/-- Space, line feed, tab and carriage return separate tokens. -/
def isSpace (b : UInt8) : Bool := b = 0x20 || b = 0x0A || b = 0x09 || b = 0x0D

/-- The bytes after leading space. -/
def skipSpace (bs : List UInt8) : List UInt8 := bs.dropWhile isSpace

/-- Read one given byte after space. -/
def byte (b : UInt8) : Reader Unit := fun bs =>
  match skipSpace bs with
  | c :: rest => if c = b then some ((), rest) else none
  | [] => none

/-- Read a fixed word. -/
def word (w : List UInt8) : Reader Unit := fun bs =>
  if w.isPrefixOf bs then some ((), bs.drop w.length) else none

/-! ### Numbers -/

/-- Whether a byte is a decimal digit. -/
def isDigit (b : UInt8) : Bool := 48 ≤ b && b ≤ 57

/-- The value of a decimal digit. -/
def digitValue (b : UInt8) : Nat := b.toNat - 48

/-- The value of decimal digits. -/
def digitsValue (ds : List UInt8) : Nat := ds.foldl (fun n d => n * 10 + digitValue d) 0

/-- The parts of a written number; `exponent` is its sign and its digits. -/
structure Numeral where
  negative : Bool
  whole : List UInt8
  fraction : Option (List UInt8)
  exponent : Option (Bool × List UInt8)
deriving DecidableEq, Repr

namespace Numeral

/-- Read at least one digit. -/
def digits : Reader (List UInt8) := fun bs =>
  match bs.takeWhile isDigit with
  | [] => none
  | ds => some (ds, bs.dropWhile isDigit)

/-- Read the digits before the point: a leading zero stands alone. -/
def readWhole : Reader (List UInt8) := fun bs => do
  let (ds, rest) ← digits bs
  if ds.head? = some (ascii '0') ∧ 1 < ds.length then none else some (ds, rest)

/-- Read a point and the digits after it, if there is a point. -/
def readFraction : Reader (Option (List UInt8)) := fun bs =>
  match bs with
  | b :: rest =>
    if b = ascii '.' then (digits rest).map fun (ds, rest) => (some ds, rest)
    else some (none, bs)
  | [] => some (none, bs)

/-- Read an exponent, if there is one. -/
def readExponent : Reader (Option (Bool × List UInt8)) := fun bs =>
  match bs with
  | b :: rest =>
    if b = ascii 'e' ∨ b = ascii 'E' then
      let (negative, rest) := match rest with
        | s :: more =>
          if s = ascii '-' then (true, more) else if s = ascii '+' then (false, more)
          else (false, rest)
        | [] => (false, rest)
      (digits rest).map fun (ds, rest) => (some (negative, ds), rest)
    else some (none, bs)
  | [] => some (none, bs)

/-- Read a number. -/
def read : Reader Numeral := fun bs => do
  let (negative, bs) := match bs with
    | b :: rest => if b = ascii '-' then (true, rest) else (false, bs)
    | [] => (false, bs)
  let (whole, bs) ← readWhole bs
  let (fraction, bs) ← readFraction bs
  let (exponent, bs) ← readExponent bs
  some (⟨negative, whole, fraction, exponent⟩, bs)

/-- The largest significand that is kept exactly. -/
def maxSignificand : Nat := UInt64.size - 1

/-- Append digits to a significand for as long as it stays within 64 bits; also gives the number
of digits taken. -/
def accumulate (significand : Nat) : List UInt8 → Nat × Nat
  | [] => (significand, 0)
  | d :: ds =>
    let next := significand * 10 + digitValue d
    if maxSignificand < next then (significand, 0)
    else
      let (s, n) := accumulate next ds
      (s, n + 1)

/-- The largest power of ten that a 64-bit number holds. -/
def maxPower : Nat := 308

/-- Ten to a power, to the nearest 64-bit number. -/
def powerOfTen (n : Nat) : Binary := Binary.double.round false (Nat.pow 10 n) 1

/-- A significand scaled by a power of ten, rounded at each step; none if it gets too large. -/
def scale (f : Binary) (exponent : Int) : Nat → Option Binary
  | 0 => some f
  | fuel + 1 =>
    if exponent.natAbs ≤ maxPower then
      if 0 ≤ exponent then
        let r := Binary.double.mul f (powerOfTen exponent.natAbs)
        if r.isFinite then some r else none
      else some (Binary.double.div f (powerOfTen exponent.natAbs))
    else if f.isZero then some f
    else if 0 ≤ exponent then none
    else scale (Binary.double.div f (powerOfTen maxPower)) (exponent + maxPower) fuel

/-- The floating-point number of a sign, a significand and a decimal exponent. -/
def float? (negative : Bool) (significand : Nat) (exponent : Int) : Option Binary :=
  (scale (Binary.double.ofInt significand) exponent 4).map fun f => if negative then f.neg else f

/-- The largest exponent that is read as a number. -/
def maxExponent : Nat := Int32.maxValue.toNatClampNeg

/-- The value of a numeral without point or exponent that fits into 64 bits. -/
def integer (negative : Bool) (significand : Nat) : Number :=
  if negative then
    if significand = 0 ∨ UInt64.size / 2 < significand then
      .float (Binary.double.ofInt significand).neg
    else .int (-(significand : Int))
  else .int significand

/-- The value of a numeral; none if it is too large. -/
def number? (n : Numeral) : Option Number :=
  let (significand, taken) := accumulate 0 n.whole
  let dropped : Int := ((n.whole.length - taken : Nat) : Int)
  if n.fraction.isNone ∧ n.exponent.isNone ∧ dropped = 0 then
    some (integer n.negative significand)
  else
    let (significand, taken) := accumulate significand (n.fraction.getD [])
    let base := dropped - taken
    let float := match n.exponent with
      | none => float? n.negative significand base
      | some (down, ds) =>
        if maxExponent < digitsValue ds then
          if significand ≠ 0 ∧ !down then none
          else some (Binary.double.zero n.negative)
        else
          float? n.negative significand (base + (if down then -(digitsValue ds : Int)
            else digitsValue ds))
    float.map .float

end Numeral

/-- Read a number and compute its value. -/
def numberToken : Reader Number := fun bs => do
  let (n, rest) ← Numeral.read bs
  let v ← n.number?
  some (v, rest)

/-! ### Strings -/

/-- The value of a digit of base sixteen. -/
def hexValue? (b : UInt8) : Option Nat :=
  if isDigit b then some (digitValue b)
  else if ascii 'a' ≤ b ∧ b ≤ ascii 'f' then some (b.toNat - 87)
  else if ascii 'A' ≤ b ∧ b ≤ ascii 'F' then some (b.toNat - 55)
  else none

/-- The value of four digits of base sixteen. -/
def hex4? (a b c d : UInt8) : Option Nat := do
  some ((((← hexValue? a) * 16 + (← hexValue? b)) * 16 + (← hexValue? c)) * 16 + (← hexValue? d))

/-- The character of an escape of one letter. -/
def escaped? (b : UInt8) : Option UInt8 :=
  if b = ascii '"' ∨ b = ascii '\\' ∨ b = ascii '/' then some b
  else if b = ascii 'b' then some 0x08
  else if b = ascii 'f' then some 0x0C
  else if b = ascii 'n' then some 0x0A
  else if b = ascii 'r' then some 0x0D
  else if b = ascii 't' then some 0x09
  else none

/-- Whether a number is the first half of a surrogate pair. -/
def isHighSurrogate (n : Nat) : Bool := 0xD800 ≤ n && n ≤ 0xDBFF

/-- Whether a number is the second half of a surrogate pair. -/
def isLowSurrogate (n : Nat) : Bool := 0xDC00 ≤ n && n ≤ 0xDFFF

/-- Read up to the closing quote, with the escapes replaced by what they stand for. -/
def stringBody (bs : List UInt8) : Option (List UInt8 × List UInt8) :=
  match bs with
  | [] => none
  | 0x22 :: rest => some ([], rest)
  | 0x5C :: 0x75 :: a :: b :: c :: d :: rest =>
    match hex4? a b c d with
    | none => none
    | some n =>
      if isLowSurrogate n then none
      else if isHighSurrogate n then
        match rest with
        | 0x5C :: 0x75 :: e :: f :: g :: h :: rest =>
          match hex4? e f g h with
          | none => none
          | some m =>
            if isLowSurrogate m then
              let c := Char.ofNat (0x10000 + (n - 0xD800) * 0x400 + (m - 0xDC00))
              (stringBody rest).map fun (s, r) => (String.utf8EncodeChar c ++ s, r)
            else none
        | _ => none
      else (stringBody rest).map fun (s, r) => (String.utf8EncodeChar (Char.ofNat n) ++ s, r)
  | 0x5C :: e :: rest =>
    match escaped? e with
    | none => none
    | some c => (stringBody rest).map fun (s, r) => (c :: s, r)
  | b :: rest => if b < 0x20 then none else (stringBody rest).map fun (s, r) => (b :: s, r)

/-- Read a quoted string. -/
def stringToken : Reader String := fun bs => do
  let ((), rest) ← byte (ascii '"') bs
  let (content, rest) ← stringBody rest
  let s ← Utf8.string? content
  some (s, rest)

/-- Pass a string up to its closing quote. -/
def skipStringBody (bs : List UInt8) : Option (List UInt8) :=
  match bs with
  | [] => none
  | 0x22 :: rest => some rest
  | 0x5C :: 0x75 :: a :: b :: c :: d :: rest =>
    if (hex4? a b c d).isSome then skipStringBody rest else none
  | 0x5C :: e :: rest => if (escaped? e).isSome then skipStringBody rest else none
  | b :: rest => if b < 0x20 then none else skipStringBody rest

/-! ### Arrays and objects -/

/-- Read the items after the first one, up to the closing byte. -/
def moreItems {α : Type} (closing : UInt8) (item : Reader α) : Nat → Reader (List α)
  | 0, _ => none
  | fuel + 1, bs =>
    match skipSpace bs with
    | c :: rest =>
      if c = closing then some ([], rest)
      else if c = ascii ',' then do
        let (v, rest) ← item rest
        let (vs, rest) ← moreItems closing item fuel rest
        some (v :: vs, rest)
      else none
    | [] => none

/-- Read items between two bytes, with commas between them. -/
def enclosed {α : Type} (opening closing : UInt8) (item : Reader α) : Reader (List α) :=
  fun bs => do
    let ((), rest) ← byte opening bs
    match skipSpace rest with
    | c :: more =>
      if c = closing then some ([], more)
      else do
        let (v, rest) ← item rest
        let (vs, rest) ← moreItems closing item bs.length rest
        some (v :: vs, rest)
    | [] => none

/-- Read an array whose items `item` reads. -/
def arrayOf {α : Type} (item : Reader α) : Reader (List α) := enclosed (ascii '[') (ascii ']') item

/-- Read a key, a colon and the value that belongs to the key. -/
def field {κ α : Type} (key : Reader κ) (value : κ → Reader α) : Reader (κ × α) := fun bs => do
  let (k, rest) ← key bs
  let ((), rest) ← byte (ascii ':') rest
  let (v, rest) ← value k rest
  some ((k, v), rest)

/-- Read an object whose fields have the given keys and values. -/
def objectOf {κ α : Type} (key : Reader κ) (value : κ → Reader α) : Reader (List (κ × α)) :=
  enclosed 0x7B 0x7D (field key value)

/-! ### Values -/

/-- Read a value that is neither an array nor an object. -/
def scalar : Reader Json := fun bs =>
  match skipSpace bs with
  | [] => none
  | b :: rest =>
    if b = ascii 'n' then
      (word [0x75, 0x6C, 0x6C] rest).map fun (_, r) => (Json.null, r)
    else if b = ascii 't' then
      (word [0x72, 0x75, 0x65] rest).map fun (_, r) => (Json.bool true, r)
    else if b = ascii 'f' then
      (word [0x61, 0x6C, 0x73, 0x65] rest).map fun (_, r) => (Json.bool false, r)
    else if b = ascii '"' then
      (stringToken (b :: rest)).map fun (s, r) => (Json.string s, r)
    else (numberToken (b :: rest)).map fun (n, r) => (Json.number n, r)

/-- Read a value that opens at most `depth` arrays and objects within each other. -/
def value : Nat → Reader Json
  | 0, bs =>
    match (skipSpace bs).head? with
    | none => none
    | some b => if b = ascii '[' ∨ b = 0x7B then none else scalar bs
  | depth + 1, bs =>
    match (skipSpace bs).head? with
    | none => none
    | some b =>
      if b = ascii '[' then (arrayOf (value depth) bs).map fun (vs, r) => (Json.array vs, r)
      else if b = 0x7B then
        (objectOf stringToken (fun _ => value depth) bs).map fun (fs, r) => (Json.object fs, r)
      else scalar bs

/-- Pass a value, looking only at its form. -/
def skip : Nat → Reader Unit
  | 0, _ => none
  | fuel + 1, bs =>
    match skipSpace bs with
    | [] => none
    | b :: rest =>
      if b = ascii '[' then (arrayOf (skip fuel) (b :: rest)).map fun (_, r) => ((), r)
      else if b = 0x7B then
        let key : Reader Unit := fun bs => do
          let ((), rest) ← byte (ascii '"') bs
          (skipStringBody rest).map fun r => ((), r)
        (objectOf key (fun _ => skip fuel) (b :: rest)).map fun (_, r) => ((), r)
      else if b = ascii '"' then (skipStringBody rest).map fun r => ((), r)
      else if b = ascii 'n' then word [0x75, 0x6C, 0x6C] rest
      else if b = ascii 't' then word [0x72, 0x75, 0x65] rest
      else if b = ascii 'f' then word [0x61, 0x6C, 0x73, 0x65] rest
      else (Numeral.read (b :: rest)).map fun (_, r) => ((), r)

/-- Read all the bytes, with space allowed around the value. -/
def whole {α : Type} (r : Reader α) (bs : List UInt8) : Option α := do
  let (v, rest) ← r bs
  if (skipSpace rest).isEmpty then some v else none

/-- The value of a JSON text. -/
def parse (bs : List UInt8) : Option Json := whole (value maxDepth) bs

end ReadThrough.Json
