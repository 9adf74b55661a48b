import Mathlib.Data.Nat.Basic
import ReadThrough.Proofs.Json.Strings
import ReadThrough.Proofs.Text.Digits

/-! # Numerals of JSON

How the digits of a number are read.

* **Form** (`Json.Numeral.Formed`).  A numeral that has the form of a JSON number is read off its
  own bytes, as long as nothing follows that could belong to it (`Json.Numeral.read_bytes`).
* **Value** (`Json.Numeral.number?_integer`, `Json.Numeral.number?_float`).  As long as all digits
  fit into 64 bits they make up the significand, and the digits behind the point count down the
  exponent.
* **Spelling** (`Json.Spelling`).  The same for the characters of a number
  (`Json.numberToken_spelling`).
* **Integers** (`Json.numberToken_decimal`) that fit into 64 bits are read back. -/

namespace ReadThrough.Json

open Utf8

/-! ### Digits -/

/-- The value of digits that are put behind a number. -/
def digitsFrom (n : Nat) (ds : List UInt8) : Nat := ds.foldl (fun n d => n * 10 + digitValue d) n

/-- Digits, at least one. -/
structure Digits (ds : List UInt8) : Prop where
  isDigit : ∀ d ∈ ds, isDigit d = true
  ne_nil : ds ≠ []

/-- What follows does not go on with a digit, a point or an exponent. -/
def Ends (rest : List UInt8) : Prop :=
  ∀ b ∈ rest.head?, isDigit b = false ∧ b ≠ ascii '.' ∧ b ≠ ascii 'e' ∧ b ≠ ascii 'E'

/-- What follows does not go on with a digit. -/
def Stops (rest : List UInt8) : Prop := ∀ b ∈ rest.head?, isDigit b = false

theorem ends_nil : Ends [] := fun _ h => (nomatch h)

theorem Ends.stops {rest : List UInt8} (h : Ends rest) : Stops rest := fun b hb => (h b hb).1

theorem stops_cons {b : UInt8} (h : isDigit b = false) (rest : List UInt8) : Stops (b :: rest) := by
  intro c hc
  obtain rfl := Option.some.inj hc
  exact h

theorem toNat_ascii {c : Char} (h : c.toNat < 128) : (ascii c).toNat = c.toNat := by
  have hv : c.val.toNat = c.toNat := rfl
  rw [ascii, Char.toUInt8, UInt32.toNat_toUInt8, hv]
  exact Nat.mod_eq_of_lt (by omega)

theorem isDigit_ascii {c : Char} (h : c.isDigit = true) :
    isDigit (ascii c) = true ∧ digitValue (ascii c) = c.toNat - '0'.toNat := by
  obtain ⟨h1, h2⟩ := Char.isDigit_iff_toNat.mp h
  have hn : (ascii c).toNat = c.toNat := toNat_ascii (h2.trans_lt (by decide))
  constructor
  · simp only [isDigit, Bool.and_eq_true, decide_eq_true_eq, UInt8.le_iff_toNat_le, hn]
    exact ⟨h1, h2⟩
  · rw [digitValue, hn]
    rfl

theorem lt_of_isDigit {c : Char} (h : c.isDigit = true) : c.toNat < 128 :=
  (Char.isDigit_iff_toNat.mp h).2.trans_lt (by decide)

/-- Text of ASCII characters, one byte each. -/
theorem encode_ascii {cs : List Char} (h : ∀ c ∈ cs, c.toNat < 128) :
    encode cs = cs.map ascii := by
  induction cs with
  | nil => rfl
  | cons c cs ih =>
      rw [encode_cons, encodeChar_ascii (h c List.mem_cons_self),
        ih fun d hd => h d (List.mem_cons_of_mem _ hd)]
      rfl

section

variable {cs : List Char} (hcs : ∀ c ∈ cs, c.isDigit = true)
include hcs

theorem encode_digits : encode cs = cs.map ascii :=
  encode_ascii fun c hc => lt_of_isDigit (hcs c hc)

theorem digits_map_ascii (hne : cs ≠ []) : Digits (cs.map ascii) := by
  refine ⟨fun d hd => ?_, by simpa using hne⟩
  obtain ⟨c, hc, rfl⟩ := List.mem_map.mp hd
  exact (isDigit_ascii (hcs c hc)).1

/-- Digits have the same value as characters and as bytes. -/
theorem digitsFrom_map_ascii (n : Nat) : digitsFrom n (cs.map ascii) = Nat.ofDigitChars 10 cs n := by
  induction cs generalizing n with
  | nil => rfl
  | cons c cs ih =>
      rw [Nat.ofDigitChars_cons, ← ih fun d hd => hcs d (List.mem_cons_of_mem _ hd)]
      show digitsFrom (n * 10 + digitValue (ascii c)) (cs.map ascii) = _
      rw [(isDigit_ascii (hcs c List.mem_cons_self)).2, Nat.mul_comm]

end

/-- More digits do not make a number less. -/
theorem le_digitsFrom (n : Nat) (ds : List UInt8) : n ≤ digitsFrom n ds := by
  induction ds generalizing n with
  | nil => exact Nat.le_refl n
  | cons d ds ih =>
      have hle : n ≤ n * 10 + digitValue d := by omega
      exact hle.trans (ih _)

namespace Numeral

theorem digits_append {ds rest : List UInt8} (h : Digits ds) (hr : Stops rest) :
    digits (ds ++ rest) = some (ds, rest) := by
  have hstop : rest.takeWhile isDigit = [] ∧ rest.dropWhile isDigit = rest := by
    cases rest with
    | nil => exact ⟨rfl, rfl⟩
    | cons b rest =>
        have hb := hr b rfl
        exact ⟨List.takeWhile_cons_of_neg (by simp [hb]), List.dropWhile_cons_of_neg (by simp [hb])⟩
  unfold digits
  rw [List.takeWhile_append_of_pos h.isDigit, List.dropWhile_append_of_pos h.isDigit, hstop.1,
    hstop.2, List.append_nil]
  cases ds with
  | nil => exact absurd rfl h.ne_nil
  | cons d ds => rfl

/-! ### Form -/

/-- The form of a JSON number: no part is without digits, and a zero in front stands alone. -/
structure Formed (n : Numeral) : Prop where
  whole : Digits n.whole
  zero : n.whole.head? = some (ascii '0') → n.whole.length ≤ 1
  fraction : ∀ ds ∈ n.fraction, Digits ds
  exponent : ∀ x ∈ n.exponent, Digits x.2

/-- The bytes of a fraction. -/
def fractionBytes : Option (List UInt8) → List UInt8
  | some ds => ascii '.' :: ds
  | none => []

/-- The bytes of an exponent, which always has a sign. -/
def exponentBytes : Option (Bool × List UInt8) → List UInt8
  | some (down, ds) => ascii 'e' :: (if down then ascii '-' else ascii '+') :: ds
  | none => []

/-- The bytes of a numeral. -/
def bytes (n : Numeral) : List UInt8 :=
  (if n.negative then [ascii '-'] else []) ++
    (n.whole ++ (fractionBytes n.fraction ++ exponentBytes n.exponent))

theorem readExponent_append {x : Option (Bool × List UInt8)} (h : ∀ y ∈ x, Digits y.2)
    {rest : List UInt8} (hr : Ends rest) :
    readExponent (exponentBytes x ++ rest) = some (x, rest) := by
  cases x with
  | none =>
      cases rest with
      | nil => rfl
      | cons b rest =>
          obtain ⟨-, -, he, hE⟩ := hr b rfl
          show readExponent (b :: rest) = _
          unfold readExponent
          dsimp only
          rw [if_neg (not_or.mpr ⟨he, hE⟩)]
  | some y =>
      obtain ⟨down, ds⟩ := y
      have hd := digits_append (h _ rfl) hr.stops
      cases down with
      | true =>
          show (digits (ds ++ rest)).map _ = _
          rw [hd]
          rfl
      | false =>
          show (digits (ds ++ rest)).map _ = _
          rw [hd]
          rfl

theorem stops_exponentBytes (x : Option (Bool × List UInt8)) {rest : List UInt8} (hr : Ends rest) :
    Stops (exponentBytes x ++ rest) := by
  cases x with
  | none => exact hr.stops
  | some y => exact stops_cons (by decide) _

theorem readFraction_append {x : Option (List UInt8)} (h : ∀ ds ∈ x, Digits ds)
    (y : Option (Bool × List UInt8)) {rest : List UInt8} (hr : Ends rest) :
    readFraction (fractionBytes x ++ (exponentBytes y ++ rest)) =
      some (x, exponentBytes y ++ rest) := by
  cases x with
  | some ds =>
      have hd := digits_append (h ds rfl) (stops_exponentBytes y hr)
      show (digits (ds ++ (exponentBytes y ++ rest))).map _ = _
      rw [hd]
      rfl
  | none =>
      show readFraction (exponentBytes y ++ rest) = _
      cases y with
      | some z => rfl
      | none =>
          cases rest with
          | nil => rfl
          | cons b rest =>
              show readFraction (b :: rest) = _
              unfold readFraction
              dsimp only
              rw [if_neg (hr b rfl).2.1]
              rfl

theorem readWhole_append {ds rest : List UInt8} (h : Digits ds)
    (hz : ds.head? = some (ascii '0') → ds.length ≤ 1) (hr : Stops rest) :
    readWhole (ds ++ rest) = some (ds, rest) := by
  unfold readWhole
  rw [digits_append h hr]
  simp only [Option.bind_eq_bind, Option.bind_some]
  rw [if_neg]
  rintro ⟨h0, h1⟩
  have := hz h0
  omega

/-- A numeral is read off its bytes. -/
theorem read_bytes {n : Numeral} (h : n.Formed) {rest : List UInt8} (hr : Ends rest) :
    read (n.bytes ++ rest) = some (n, rest) := by
  obtain ⟨negative, whole, fraction, exponent⟩ := n
  have hstops : Stops (fractionBytes fraction ++ (exponentBytes exponent ++ rest)) := by
    cases fraction with
    | some ds => exact stops_cons (by decide) _
    | none => exact stops_exponentBytes exponent hr
  have hw := readWhole_append h.whole h.zero hstops
  have hf := readFraction_append h.fraction exponent hr
  have he := readExponent_append h.exponent hr
  dsimp only at hw hf he
  unfold read bytes
  cases negative with
  | true =>
      simp only [if_true, List.append_assoc, List.cons_append, List.nil_append]
      rw [hw]
      simp only [Option.bind_eq_bind, Option.bind_some, hf, he]
  | false =>
      -- a digit is no sign
      obtain ⟨d, ds, hd⟩ := List.exists_cons_of_ne_nil h.whole.ne_nil
      dsimp only at hd
      have hne : d ≠ ascii '-' := by
        rintro rfl
        have := h.whole.isDigit (ascii '-') (by rw [hd]; exact List.mem_cons_self)
        exact absurd this (by decide)
      subst hd
      simp only [List.cons_append] at hw
      simp only [Bool.false_eq_true, if_false, List.append_assoc, List.nil_append, List.cons_append]
      rw [if_neg hne]
      dsimp only
      rw [hw]
      simp only [Option.bind_eq_bind, Option.bind_some, hf, he]

/-! ### Value -/

/-- Digits that fit into 64 bits are all taken. -/
theorem accumulate_eq {m : Nat} {ds : List UInt8} (h : digitsFrom m ds ≤ maxSignificand) :
    accumulate m ds = (digitsFrom m ds, ds.length) := by
  induction ds generalizing m with
  | nil => rfl
  | cons d ds ih =>
      have hm : ¬ maxSignificand < m * 10 + digitValue d :=
        Nat.not_lt.mpr ((le_digitsFrom _ ds).trans h)
      unfold accumulate
      rw [if_neg hm, ih h]
      rfl

theorem number?_integer {n : Numeral} (hf : n.fraction = none) (he : n.exponent = none)
    (h : digitsFrom 0 n.whole ≤ maxSignificand) :
    n.number? = some (integer n.negative (digitsFrom 0 n.whole)) := by
  unfold number?
  rw [accumulate_eq h]
  simp [hf, he]

theorem number?_float {n : Numeral} (hf : n.fraction ≠ none ∨ n.exponent ≠ none)
    (h : digitsFrom (digitsFrom 0 n.whole) (n.fraction.getD []) ≤ maxSignificand)
    (he : ∀ x ∈ n.exponent, digitsValue x.2 ≤ maxExponent) :
    n.number? = (float? n.negative (digitsFrom (digitsFrom 0 n.whole) (n.fraction.getD []))
      ((match n.exponent with
        | none => 0
        | some (down, ds) => if down then -(digitsValue ds : Int) else digitsValue ds) -
      (n.fraction.getD []).length)).map .float := by
  have hw : digitsFrom 0 n.whole ≤ maxSignificand := (le_digitsFrom _ _).trans h
  have hs : ¬ (n.fraction.isNone ∧ n.exponent.isNone ∧
      ((n.whole.length - n.whole.length : Nat) : Int) = 0) := by
    rintro ⟨h1, h2, -⟩
    rcases hf with hf | hf
    · exact hf (Option.isNone_iff_eq_none.mp h1)
    · exact hf (Option.isNone_iff_eq_none.mp h2)
  unfold number?
  rw [accumulate_eq hw]
  dsimp only
  rw [if_neg hs, accumulate_eq h]
  cases hx : n.exponent with
  | none => simp
  | some x =>
      obtain ⟨down, ds⟩ := x
      have hd : ¬ maxExponent < digitsValue ds := Nat.not_lt.mpr (he _ hx)
      dsimp only
      rw [if_neg hd]
      congr 2
      rw [Nat.sub_self]
      omega

end Numeral

theorem numberToken_bytes {n : Numeral} (h : n.Formed) {rest : List UInt8} (hr : Ends rest) :
    numberToken (n.bytes ++ rest) = n.number?.map fun v => (v, rest) := by
  unfold numberToken
  rw [Numeral.read_bytes h hr]
  cases hn : n.number? <;> simp [hn]

/-! ### Spelling -/

/-- The text of a sign. -/
def signText (negative : Bool) : List Char := if negative then ['-'] else []

/-- The characters of a number behind its sign.  A fraction without digits is left out, and so is
an exponent that is not there. -/
structure Spelling where
  whole : List Char
  fraction : List Char
  exponent : Option Int

namespace Spelling

/-- The text of a number behind its sign. -/
def text (s : Spelling) : List Char :=
  s.whole ++ ((if s.fraction.isEmpty then [] else '.' :: s.fraction) ++
    match s.exponent with
    | none => []
    | some x => 'e' :: (if x < 0 then '-' else '+') :: Nat.toDigits 10 x.natAbs)

/-- What is read of a spelling. -/
def numeral (s : Spelling) (negative : Bool) : Numeral where
  negative := negative
  whole := s.whole.map ascii
  fraction := if s.fraction.isEmpty then none else some (s.fraction.map ascii)
  exponent := s.exponent.map fun x => (decide (x < 0), (Nat.toDigits 10 x.natAbs).map ascii)

/-- Digits only, at least one before the point, and no zero in front of them. -/
structure Proper (s : Spelling) : Prop where
  whole : ∀ c ∈ s.whole, c.isDigit = true
  fraction : ∀ c ∈ s.fraction, c.isDigit = true
  ne_nil : s.whole ≠ []
  zero : s.whole.head? = some '0' → s.whole.length ≤ 1

/-- All digits as one number. -/
def significand (s : Spelling) : Nat := Nat.ofDigitChars 10 (s.whole ++ s.fraction) 0

/-- The exponent of the last digit. -/
def last (s : Spelling) : Int := s.exponent.getD 0 - s.fraction.length

variable {s : Spelling}

theorem Proper.formed (h : s.Proper) (negative : Bool) : (s.numeral negative).Formed := by
  refine ⟨digits_map_ascii h.whole h.ne_nil, fun h0 => ?_, fun ds hds => ?_, fun x hx => ?_⟩
  · simp only [numeral, List.length_map]
    refine h.zero ?_
    obtain ⟨c, cs, hc⟩ := List.exists_cons_of_ne_nil h.ne_nil
    have hd : c.isDigit = true := h.whole c (by rw [hc]; exact List.mem_cons_self)
    simp only [numeral, hc, List.map_cons, List.head?_cons] at h0 ⊢
    have ht := congrArg UInt8.toNat (Option.some.inj h0)
    rw [toNat_ascii (lt_of_isDigit hd), toNat_ascii (by decide)] at ht
    exact congrArg some (Char.ext (UInt32.toNat_inj.mp ht))
  · simp only [numeral] at hds
    split at hds
    · cases hds
    · rename_i hne
      obtain rfl := Option.some.inj hds
      exact digits_map_ascii h.fraction (by simpa using hne)
  · obtain ⟨y, -, rfl⟩ := Option.map_eq_some_iff.mp hx
    exact digits_map_ascii (fun _ => Text.isDigit_toDigits) Nat.toDigits_ne_nil

theorem Proper.encode_text (h : s.Proper) (negative : Bool) :
    encode (signText negative ++ s.text) = (s.numeral negative).bytes := by
  have hsign : encode (signText negative) = if negative then [ascii '-'] else [] := by
    cases negative <;> rfl
  have hfraction : encode (if s.fraction.isEmpty then [] else '.' :: s.fraction) =
      Numeral.fractionBytes (s.numeral negative).fraction := by
    simp only [numeral]
    split
    · rfl
    · rw [encode_cons, encode_digits h.fraction]
      rfl
  have hexponent : encode (match s.exponent with
      | none => []
      | some x => 'e' :: (if x < 0 then '-' else '+') :: Nat.toDigits 10 x.natAbs) =
      Numeral.exponentBytes (s.numeral negative).exponent := by
    simp only [numeral]
    cases s.exponent with
    | none => rfl
    | some x =>
        dsimp only
        rw [encode_cons, encode_cons, encode_digits fun _ => Text.isDigit_toDigits]
        by_cases hx : x < 0
        · simp only [hx, if_true, decide_true, Option.map_some, Numeral.exponentBytes]
          rfl
        · simp only [hx, if_false, decide_false, Option.map_some, Numeral.exponentBytes]
          rfl
  unfold text Numeral.bytes
  rw [encode_append, encode_append, encode_append, hsign, hfraction, hexponent,
    encode_digits h.whole]
  rfl

/-- The digits of a spelling are read as one number. -/
theorem Proper.digitsFrom_numeral (h : s.Proper) (negative : Bool) :
    digitsFrom (digitsFrom 0 (s.numeral negative).whole) ((s.numeral negative).fraction.getD []) =
      s.significand := by
  have hfraction : (s.numeral negative).fraction.getD [] = s.fraction.map ascii := by
    simp only [numeral]
    split
    · rename_i he
      rw [List.isEmpty_iff.mp he]
      rfl
    · rfl
  rw [hfraction, digitsFrom_map_ascii h.fraction, numeral, digitsFrom_map_ascii h.whole,
    ← Nat.ofDigitChars_append]
  rfl

theorem Proper.numeral_isInteger (h : s.Proper) (hf : s.fraction = []) (he : s.exponent = none)
    (negative : Bool) (hs : s.significand ≤ Numeral.maxSignificand) :
    (s.numeral negative).number? = some (Numeral.integer negative s.significand) := by
  have hn : (s.numeral negative).fraction = none := by simp [numeral, hf]
  have hd := h.digitsFrom_numeral negative
  rw [hn] at hd
  have hw : digitsFrom 0 (s.numeral negative).whole = s.significand := hd
  rw [Numeral.number?_integer hn (by simp [numeral, he]) (by rw [hw]; exact hs), hw]
  rfl

theorem Proper.numeral_isFloat (h : s.Proper) (hf : s.fraction ≠ [] ∨ s.exponent ≠ none)
    (negative : Bool) (hs : s.significand ≤ Numeral.maxSignificand)
    (he : ∀ x ∈ s.exponent, x.natAbs ≤ Numeral.maxExponent) :
    (s.numeral negative).number? = (Numeral.float? negative s.significand s.last).map .float := by
  have hvalue (x : Int) : digitsValue ((Nat.toDigits 10 x.natAbs).map ascii) = x.natAbs := by
    have hd := digitsFrom_map_ascii (fun _ => Text.isDigit_toDigits (n := x.natAbs)) 0
    rw [Nat.ofDigitChars_ten_toDigits] at hd
    exact hd
  have hlength : ((s.numeral negative).fraction.getD []).length = s.fraction.length := by
    simp only [numeral]
    split
    · rename_i he
      rw [List.isEmpty_iff.mp he]
      rfl
    · simp
  rw [Numeral.number?_float, h.digitsFrom_numeral, hlength]
  · unfold last numeral
    cases s.exponent with
    | none => rfl
    | some x =>
        simp only [Option.map_some, Option.getD_some, hvalue, decide_eq_true_eq]
        congr 3
        split <;> omega
  · refine hf.imp (fun hne => ?_) fun hne => ?_
    · simp [numeral, hne]
    · simpa [numeral] using hne
  · rw [h.digitsFrom_numeral]
    exact hs
  · intro y hy
    obtain ⟨x, hx, rfl⟩ := Option.map_eq_some_iff.mp hy
    rw [hvalue]
    exact he x hx

end Spelling

/-- What is spelled properly is read. -/
theorem numberToken_spelling {s : Spelling} (h : s.Proper) (negative : Bool) {rest : List UInt8}
    (hr : Ends rest) :
    numberToken (encode (signText negative ++ s.text) ++ rest) =
      (s.numeral negative).number?.map fun v => (v, rest) := by
  rw [h.encode_text, numberToken_bytes (h.formed negative) hr]

/-! ### Integers -/

/-- The spelling of a natural number. -/
def Spelling.ofNat (n : Nat) : Spelling := ⟨Nat.toDigits 10 n, [], none⟩

theorem Spelling.proper_ofNat (n : Nat) : (Spelling.ofNat n).Proper := by
  refine ⟨fun c hc => Text.isDigit_toDigits hc, fun c hc => (nomatch hc), Nat.toDigits_ne_nil,
    fun h => ?_⟩
  rcases Nat.eq_zero_or_pos n with rfl | hpos
  · decide
  · -- only the number zero starts with a zero
    exact absurd h (Text.head?_toDigits hpos)

theorem Spelling.significand_ofNat (n : Nat) : (Spelling.ofNat n).significand = n := by
  rw [significand, ofNat, List.append_nil, Nat.ofDigitChars_ten_toDigits]

theorem decimal_eq (n : Int) :
    Text.decimal n = signText (decide (n < 0)) ++ (Spelling.ofNat n.natAbs).text := by
  unfold Text.decimal signText
  by_cases hn : n < 0
  · simp [hn, Spelling.text, Spelling.ofNat]
  · simp [hn, Spelling.text, Spelling.ofNat]

/-- **An integer of 64 bits is read back.** -/
theorem numberToken_decimal {n : Int} (hl : -2 ^ 63 ≤ n) (hu : n < 2 ^ 64) {rest : List UInt8}
    (hr : Ends rest) :
    numberToken (encode (Text.decimal n) ++ rest) = some (.int n, rest) := by
  have hmax : Numeral.maxSignificand = 2 ^ 64 - 1 := rfl
  have hs := Spelling.significand_ofNat n.natAbs
  have hproper := Spelling.proper_ofNat n.natAbs
  have hint : Numeral.integer (decide (n < 0)) n.natAbs = .int n := by
    unfold Numeral.integer
    by_cases hn : n < 0
    · have hsize : UInt64.size / 2 = 2 ^ 63 := rfl
      have habs : -(n.natAbs : Int) = n := by omega
      simp only [hn, decide_true, if_true]
      rw [if_neg (by omega), habs]
    · have habs : (n.natAbs : Int) = n := by omega
      simp only [hn, decide_false, Bool.false_eq_true, if_false, habs]
  rw [decimal_eq, numberToken_spelling hproper _ hr,
    hproper.numeral_isInteger rfl rfl _ (by rw [hs]; omega), hs, hint]
  rfl

end ReadThrough.Json
