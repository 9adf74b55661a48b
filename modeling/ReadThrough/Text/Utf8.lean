/-! # UTF-8

Characters as bytes.  `encode` writes each character with `String.utf8EncodeChar`; `decode` reads
exactly the well-formed sequences, without overlong forms, surrogates or characters beyond
`U+10FFFF`; `decodeLossy` puts one `U+FFFD` in place of each ill-formed stretch.  A stretch is a
first byte with the continuation bytes that could still have belonged to a character. -/

namespace ReadThrough.Utf8

/-- The bytes of a text. -/
def encode (cs : List Char) : List UInt8 := cs.flatMap String.utf8EncodeChar

/-- Whether a byte continues a character. -/
def isTail (b : UInt8) : Bool := 0x80 ≤ b && b ≤ 0xBF

/-- Whether `b` may follow the first byte `a` of a character of at least three bytes. -/
def isSecond (a b : UInt8) : Bool :=
  if a = 0xE0 then 0xA0 ≤ b && b ≤ 0xBF
  else if a = 0xED then 0x80 ≤ b && b ≤ 0x9F
  else if a = 0xF0 then 0x90 ≤ b && b ≤ 0xBF
  else if a = 0xF4 then 0x80 ≤ b && b ≤ 0x8F
  else isTail b

/-- The six bits that a continuation byte carries. -/
def payload (b : UInt8) : Nat := b.toNat % 64

/-- The number of bytes that a first byte announces, zero if it cannot start a character. -/
def width (a : UInt8) : Nat :=
  if a < 0x80 then 1
  else if 0xC2 ≤ a && a ≤ 0xDF then 2
  else if 0xE0 ≤ a && a ≤ 0xEF then 3
  else if 0xF0 ≤ a && a ≤ 0xF4 then 4
  else 0

/-- The first character of a text, and how many bytes it takes; without a character, how many
bytes are to be skipped. -/
def first : List UInt8 → Option Char × Nat
  | [] => (none, 0)
  | a :: rest =>
    match width a, rest with
    | 1, _ => (some (Char.ofNat a.toNat), 1)
    | 2, b :: _ =>
      if isTail b then (some (Char.ofNat (a.toNat % 32 * 64 + payload b)), 2) else (none, 1)
    | 3, b :: c :: _ =>
      if isSecond a b then
        if isTail c then
          (some (Char.ofNat (a.toNat % 16 * 4096 + payload b * 64 + payload c)), 3)
        else (none, 2)
      else (none, 1)
    | 3, [b] => (none, if isSecond a b then 2 else 1)
    | 4, b :: c :: d :: _ =>
      if isSecond a b then
        if isTail c then
          if isTail d then
            (some (Char.ofNat
              (a.toNat % 8 * 262144 + payload b * 4096 + payload c * 64 + payload d)), 4)
          else (none, 3)
        else (none, 2)
      else (none, 1)
    | 4, [b, c] => (none, if isSecond a b then (if isTail c then 3 else 2) else 1)
    | 4, [b] => (none, if isSecond a b then 2 else 1)
    | _, _ => (none, 1)

/-- A non-empty text has at least one byte before its second character. -/
theorem first_pos (a : UInt8) (rest : List UInt8) : 0 < (first (a :: rest)).2 := by
  simp only [first]
  split <;> grind

/-- The characters of a text, if it is well formed. -/
def decode (bs : List UInt8) : Option (List Char) :=
  match bs with
  | [] => some []
  | a :: rest =>
    match (first (a :: rest)).1 with
    | some c => (decode ((a :: rest).drop (first (a :: rest)).2)).map (c :: ·)
    | none => none
termination_by bs.length
decreasing_by
  have := first_pos a rest
  simp only [List.length_drop, List.length_cons]
  omega

/-- The characters of a text, with `U+FFFD` for what is ill formed. -/
def decodeLossy (bs : List UInt8) : List Char :=
  match bs with
  | [] => []
  | a :: rest =>
    (first (a :: rest)).1.getD '\ufffd' :: decodeLossy ((a :: rest).drop (first (a :: rest)).2)
termination_by bs.length
decreasing_by
  have := first_pos a rest
  simp only [List.length_drop, List.length_cons]
  omega

/-- The bytes of a string. -/
def bytes (s : String) : List UInt8 := encode s.toList

/-- The string of well-formed bytes. -/
def string? (bs : List UInt8) : Option String := (decode bs).map String.ofList

end ReadThrough.Utf8
