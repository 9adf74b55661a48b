import ReadThrough.Json.Reader
import ReadThrough.Proofs.Text.Utf8

/-! # Strings of JSON

A quoted string is read back as the string itself, whatever stands behind it.

* **Escapes** (`Json.stringBody_escape`).  What is written for a character, escaped or not, is read
  as the bytes of that character.
* **Strings** (`Json.stringToken_quoted`). -/

namespace ReadThrough

namespace Utf8

theorem encode_append (cs ds : List Char) : encode (cs ++ ds) = encode cs ++ encode ds :=
  List.flatMap_append

theorem encode_cons (c : Char) (cs : List Char) :
    encode (c :: cs) = String.utf8EncodeChar c ++ encode cs :=
  List.flatMap_cons

/-- An ASCII character is one byte. -/
theorem encodeChar_ascii {c : Char} (h : c.toNat < 128) :
    String.utf8EncodeChar c = [Json.ascii c] := by
  have hle : c.val.toNat ≤ 127 := Nat.le_of_lt_succ h
  unfold String.utf8EncodeChar
  rw [if_pos hle]
  rfl

/-- The bytes of other characters are beyond ASCII. -/
theorem le_of_mem_encodeChar {c : Char} (h : 128 ≤ c.toNat) {b : UInt8}
    (hb : b ∈ String.utf8EncodeChar c) : 128 ≤ b.toNat := by
  have hc := toNat_val_lt c
  have hle : ¬ c.val.toNat ≤ 127 := by
    have : 128 ≤ c.val.toNat := h
    omega
  unfold String.utf8EncodeChar at hb
  dsimp only at hb
  rw [if_neg hle] at hb
  split_ifs at hb <;> simp only [List.mem_cons, List.not_mem_nil, or_false] at hb <;>
    rcases hb with rfl | rfl | rfl | rfl <;> rw [toNat_ofNat (by omega)] <;> omega

end Utf8

namespace Json

open Utf8

/-! ### Bytes that stand for themselves -/

/-- A byte that is neither a quote, nor a backslash, nor a control character. -/
def isPlain (b : UInt8) : Bool := b ≠ 0x22 && b ≠ 0x5C && !(b < 0x20)

/-- Put bytes in front of what a reader of a string gives. -/
def prepend (bs : List UInt8) (r : Option (List UInt8 × List UInt8)) :
    Option (List UInt8 × List UInt8) :=
  r.map fun (s, rest) => (bs ++ s, rest)

theorem stringBody_plain {b : UInt8} (h : isPlain b = true) (rest : List UInt8) :
    stringBody (b :: rest) = prepend [b] (stringBody rest) := by
  simp only [isPlain, Bool.and_eq_true, decide_eq_true_eq, Bool.not_eq_true',
    decide_eq_false_iff_not] at h
  obtain ⟨⟨h1, h2⟩, h3⟩ := h
  rw [stringBody]
  · rw [if_neg h3]
    rfl
  · exact h1
  · intro a b c d rest' he
    exact absurd he h2
  · intro e rest' he
    exact absurd he h2

theorem prepend_prepend (bs cs : List UInt8) (r : Option (List UInt8 × List UInt8)) :
    prepend bs (prepend cs r) = prepend (bs ++ cs) r := by
  cases r with
  | none => rfl
  | some x => simp [prepend]

theorem stringBody_append {bs : List UInt8} (h : ∀ b ∈ bs, isPlain b = true)
    (rest : List UInt8) : stringBody (bs ++ rest) = prepend bs (stringBody rest) := by
  induction bs with
  | nil => cases hr : stringBody rest <;> simp [prepend, hr]
  | cons b bs ih =>
      rw [List.cons_append, stringBody_plain (h b List.mem_cons_self),
        ih fun c hc => h c (List.mem_cons_of_mem _ hc), prepend_prepend]
      rfl

theorem isPlain_of_le {b : UInt8} (h : 128 ≤ b.toNat) : isPlain b = true := by
  have ne (k : Nat) (hk : k < 128) : b ≠ UInt8.ofNat k := by
    rintro rfl
    rw [toNat_ofNat (by omega)] at h
    omega
  have hlt : ¬ b < 0x20 := by
    rw [UInt8.lt_iff_toNat_lt]
    exact Nat.not_lt.mpr (le_trans (by decide) h)
  simpa [isPlain, hlt] using ⟨ne 0x22 (by decide), ne 0x5C (by decide)⟩

/-- Most characters of ASCII stand for themselves. -/
theorem isPlain_ascii {c : Char} (h : c.toNat < 128) (h1 : c ≠ '"') (h2 : c ≠ '\\')
    (h3 : 0x20 ≤ c.toNat) : isPlain (ascii c) = true := by
  have small : ∀ n < 128, 0x20 ≤ n → Char.ofNat n ≠ '"' → Char.ofNat n ≠ '\\' →
      isPlain (ascii (Char.ofNat n)) = true := by decide
  have hc : Char.ofNat c.toNat = c := Char.ofNat_toNat c
  have hs := small c.toNat h h3
  rw [hc] at hs
  exact hs h1 h2

/-! ### Escapes -/

/-- A backslash and a letter. -/
theorem stringBody_letter {e c : UInt8} (hu : e ≠ 0x75) (he : escaped? e = some c)
    (rest : List UInt8) : stringBody (0x5C :: e :: rest) = prepend [c] (stringBody rest) := by
  rw [stringBody]
  · rw [he]
    rfl
  · intro a b c d rest' h
    exact absurd h hu

/-- A backslash and the number of a character. -/
theorem stringBody_unicode {a b c d : UInt8} {n : Nat} (h : hex4? a b c d = some n)
    (hl : isLowSurrogate n = false) (hh : isHighSurrogate n = false) (rest : List UInt8) :
    stringBody (0x5C :: 0x75 :: a :: b :: c :: d :: rest) =
      prepend (String.utf8EncodeChar (Char.ofNat n)) (stringBody rest) := by
  rw [stringBody]
  rw [h]
  dsimp only
  rw [if_neg (by rw [hl]; decide), if_neg (by rw [hh]; decide)]
  rfl

/-- The four digits of a control character. -/
theorem hex4?_control {n : Nat} (h : n < 0x20) :
    hex4? (ascii '0') (ascii '0') (ascii (Hex.digit (n / 16))) (ascii (Hex.digit (n % 16))) =
      some n := by
  have small : ∀ n < 0x20, hex4? (ascii '0') (ascii '0') (ascii (Hex.digit (n / 16)))
      (ascii (Hex.digit (n % 16))) = some n := by decide
  exact small n h

/-- What is written for a character is read as its bytes. -/
theorem stringBody_escape (c : Char) (rest : List UInt8) :
    stringBody (encode (escape c) ++ rest) =
      prepend (String.utf8EncodeChar c) (stringBody rest) := by
  unfold escape
  split
  · exact stringBody_letter (by decide) rfl rest
  · exact stringBody_letter (by decide) rfl rest
  · exact stringBody_letter (by decide) rfl rest
  · exact stringBody_letter (by decide) rfl rest
  · exact stringBody_letter (by decide) rfl rest
  · exact stringBody_letter (by decide) rfl rest
  · exact stringBody_letter (by decide) rfl rest
  · rename_i h1 h2 _ _ _ _ _
    split
    · rename_i hc
      have hd := hex4?_control hc
      have hascii : ∀ k < 16, (Hex.digit k).toNat < 128 := by decide
      have he : encode ['\\', 'u', '0', '0', Hex.digit (c.toNat / 16), Hex.digit (c.toNat % 16)] =
          [0x5C, 0x75, ascii '0', ascii '0', ascii (Hex.digit (c.toNat / 16)),
            ascii (Hex.digit (c.toNat % 16))] := by
        rw [encode_cons, encode_cons, encode_cons, encode_cons, encode_cons, encode_cons,
          encodeChar_ascii (hascii (c.toNat / 16) (by omega)),
          encodeChar_ascii (hascii (c.toNat % 16) (by omega))]
        rfl
      have hs := stringBody_unicode hd (by unfold isLowSurrogate; simp; omega)
        (by unfold isHighSurrogate; simp; omega) rest
      rw [Char.ofNat_toNat] at hs
      rw [he]
      exact hs
    · rename_i hc
      rw [encode_cons, show encode [] = [] from rfl, List.append_nil]
      refine stringBody_append (fun b hb => ?_) rest
      rcases Nat.lt_or_ge c.toNat 128 with h | h
      · rw [encodeChar_ascii h, List.mem_singleton] at hb
        rw [hb]
        exact isPlain_ascii h h1 h2 (Nat.not_lt.mp hc)
      · exact isPlain_of_le (le_of_mem_encodeChar h hb)

theorem stringBody_quoted (cs : List Char) (rest : List UInt8) :
    stringBody (encode (cs.flatMap escape ++ ['"']) ++ rest) = some (encode cs, rest) := by
  induction cs with
  | nil => rfl
  | cons c cs ih =>
      rw [List.flatMap_cons, List.append_assoc, encode_append, List.append_assoc,
        stringBody_escape, ih, encode_cons]
      rfl

/-- **A quoted string is read back.** -/
theorem stringToken_quoted (s : String) (rest : List UInt8) :
    stringToken (encode (quoted s) ++ rest) = some (s, rest) := by
  have hb : byte (ascii '"') (encode (quoted s) ++ rest) =
      some ((), encode (s.toList.flatMap escape ++ ['"']) ++ rest) := rfl
  have hs : string? (encode s.toList) = some s := string?_bytes s
  unfold stringToken
  rw [hb]
  simp only [Option.bind_eq_bind, Option.bind_some, stringBody_quoted, hs]

end Json

end ReadThrough
