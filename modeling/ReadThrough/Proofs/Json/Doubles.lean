import ReadThrough.Proofs.Binary.Shortest
import ReadThrough.Proofs.Json.Numerals
import ReadThrough.Proofs.Json.Scaling

/-! # Floating-point numbers of JSON

A finite number is written with the digits of its shortest decimal, and what is read is that
decimal, scaled step by step.

* **Spelling** (`Json.Spelling.ofDecimal`).  Whatever the layout, a decimal is spelled with its own
  digits; written positionally it may get zeros behind them.
* **Reading back** (`Json.reread`, `Json.numberToken_doubleText`).  Every finite number is read as
  a number again (`Json.isSome_reread`).  It is the same number if the significand has 53 bits and
  the power of ten is small (`Json.reread_of_short`); others may come back as a neighbour. -/

namespace ReadThrough.Json

open Utf8 Binary

/-! ### Decimals -/

/-- A decimal below one without an exponent. -/
def Spelling.fractional (d : Decimal) : Spelling where
  whole := ['0']
  fraction := List.replicate (-d.exponent - 1).toNat '0' ++ d.digits
  exponent := none

/-- A decimal from one on without an exponent. -/
def Spelling.integral (d : Decimal) : Spelling where
  whole := d.digits.take (d.exponent.toNat + 1) ++
    List.replicate (d.exponent.toNat + 1 - d.digits.length) '0'
  fraction := if (d.digits.drop (d.exponent.toNat + 1)).isEmpty then ['0']
    else d.digits.drop (d.exponent.toNat + 1)
  exponent := none

/-- A decimal with an exponent. -/
def Spelling.scientific (d : Decimal) : Spelling where
  whole := d.digits.take 1
  fraction := d.digits.drop 1
  exponent := some d.exponent

/-- The spelling of a decimal. -/
def Spelling.ofDecimal (l : Layout) (d : Decimal) : Spelling :=
  if l.least ≤ d.exponent ∧ d.exponent ≤ l.greatest then
    if d.exponent < 0 then .fractional d else .integral d
  else .scientific d

section

variable {l : Layout} {d : Decimal}

theorem text_ofDecimal (h : d.Plain) (hl : l.plus = true) :
    d.text l = (Spelling.ofDecimal l d).text := by
  unfold Decimal.text Spelling.ofDecimal
  split
  · unfold Decimal.positional
    split
    · simp [Spelling.fractional, Spelling.text, h.ne_nil]
    · simp only [Spelling.integral, Spelling.text]
      split <;> simp_all
  · unfold Decimal.scientific Spelling.scientific Spelling.text
    rw [hl]
    obtain ⟨c, cs, hc⟩ := List.exists_cons_of_ne_nil h.ne_nil
    cases cs with
    | nil => by_cases hx : d.exponent < 0 <;> simp [hc, hx]
    | cons c' cs => by_cases hx : d.exponent < 0 <;> simp [hc, hx]

theorem isDigit_zeros (k : ℕ) (c : Char) (hc : c ∈ List.replicate k '0') : c.isDigit = true := by
  rw [List.eq_of_mem_replicate hc]
  decide

/-- The digits in front of the point start with the first digit of the decimal. -/
theorem head?_take_append (h : d.Plain) (k : ℕ) (cs : List Char) :
    (d.digits.take (k + 1) ++ cs).head? ≠ some '0' := by
  obtain ⟨c, ds, hc⟩ := List.exists_cons_of_ne_nil h.ne_nil
  have h0 := h.head
  rw [hc] at h0 ⊢
  exact h0

theorem take_ne_nil (h : d.Plain) (k : ℕ) : d.digits.take (k + 1) ≠ [] :=
  fun he => (List.take_eq_nil_iff.mp he).elim (Nat.succ_ne_zero k) h.ne_nil

theorem proper_ofDecimal (h : d.Plain) : (Spelling.ofDecimal l d).Proper := by
  unfold Spelling.ofDecimal
  split
  · split
    · refine ⟨isDigit_zeros 1, fun c hc => ?_, List.cons_ne_nil _ _, fun _ => le_rfl⟩
      rcases List.mem_append.mp hc with hc | hc
      · exact isDigit_zeros _ c hc
      · exact h.isDigit c hc
    · refine ⟨fun c hc => ?_, fun c hc => ?_, List.append_ne_nil_of_left_ne_nil (take_ne_nil h _) _,
        fun h0 => absurd h0 (head?_take_append h _ _)⟩
      · rcases List.mem_append.mp hc with hc | hc
        · exact h.isDigit c (List.mem_of_mem_take hc)
        · exact isDigit_zeros _ c hc
      · simp only [Spelling.integral] at hc
        split at hc
        · exact isDigit_zeros 1 c hc
        · exact h.isDigit c (List.mem_of_mem_drop hc)
  · have h1 := head?_take_append h 0 []
    rw [List.append_nil] at h1
    exact ⟨fun c hc => h.isDigit c (List.mem_of_mem_take hc),
      fun c hc => h.isDigit c (List.mem_of_mem_drop hc), take_ne_nil h 0, fun h0 => absurd h0 h1⟩

/-- A spelling has the digits of a decimal with `z` zeros behind them, and no more digits than fit
into 64 bits. -/
structure Spells (s : Spelling) (d : Decimal) (z : ℕ) : Prop where
  significand : s.significand = 10 ^ z * d.significand
  last : s.last = d.last - z
  length_le : d.digits.length + z ≤ 17

/-- Zeros in front do not count. -/
theorem spells_fractional (h : d.Plain) (hd : d.exponent < 0) :
    Spells (.fractional d) d 0 := by
  refine ⟨?_, ?_, h.length_le⟩
  · rw [Spelling.significand, Spelling.fractional, List.singleton_append, Nat.ofDigitChars_cons,
      Nat.ofDigitChars_append, Nat.ofDigitChars_replicate_zero]
    simp [Decimal.significand]
  · simp only [Spelling.last, Spelling.fractional, Decimal.last, Option.getD_none,
      List.length_append, List.length_replicate]
    omega

/-- An integer gets zeros up to the point and one behind it. -/
theorem spells_integral (h : d.Plain) (h0 : ¬ d.exponent < 0) (hg : d.exponent ≤ 15) :
    ∃ z, Spells (.integral d) d z := by
  have hlen := h.length_le
  by_cases hk : d.digits.length ≤ d.exponent.toNat + 1
  · have hdrop : d.digits.drop (d.exponent.toNat + 1) = [] := List.drop_eq_nil_of_le hk
    have htake : d.digits.take (d.exponent.toNat + 1) = d.digits := List.take_of_length_le hk
    have hone : ['0'] = List.replicate 1 '0' := rfl
    refine ⟨d.exponent.toNat + 1 - d.digits.length + 1, ?_, ?_, by omega⟩
    · simp only [Spelling.significand, Spelling.integral, Decimal.significand, hdrop, htake,
        List.isEmpty_nil, if_true]
      rw [Nat.ofDigitChars_append, Nat.ofDigitChars_append, Nat.ofDigitChars_replicate_zero, hone,
        Nat.ofDigitChars_replicate_zero, ← Nat.mul_assoc, ← Nat.pow_add, Nat.add_comm 1]
    · simp only [Spelling.last, Spelling.integral, Decimal.last, hdrop, List.isEmpty_nil, if_true,
        Option.getD_none, List.length_singleton]
      omega
  · have hdrop : (d.digits.drop (d.exponent.toNat + 1)).isEmpty = false := by
      simp only [List.isEmpty_eq_false_iff, ne_eq, List.drop_eq_nil_iff]
      exact hk
    have hzero : d.exponent.toNat + 1 - d.digits.length = 0 := by omega
    refine ⟨0, ?_, ?_, hlen⟩
    · simp [Spelling.significand, Spelling.integral, Decimal.significand, hdrop, hzero]
    · simp only [Spelling.last, Spelling.integral, Decimal.last, hdrop, Option.getD_none,
        Bool.false_eq_true, if_false, List.length_drop]
      omega

theorem spells_scientific (h : d.Plain) : Spells (.scientific d) d 0 := by
  have hpos : 0 < d.digits.length := List.length_pos_iff.mpr h.ne_nil
  refine ⟨?_, ?_, h.length_le⟩
  · rw [Spelling.significand, Spelling.scientific, List.take_append_drop, Nat.pow_zero, Nat.one_mul]
    rfl
  · simp only [Spelling.last, Spelling.scientific, Decimal.last, Option.getD_some, List.length_drop]
    omega

theorem exists_spells (h : d.Plain) (hg : l.greatest ≤ 15) :
    ∃ z, Spells (.ofDecimal l d) d z := by
  unfold Spelling.ofDecimal
  split
  · rename_i hl
    split
    · rename_i hd
      exact ⟨0, spells_fractional h hd⟩
    · rename_i hd
      exact spells_integral h hd (hl.2.trans hg)
  · exact ⟨0, spells_scientific h⟩

/-- A spelling stands for the decimal, and its digits fit into 64 bits. -/
theorem value_ofDecimal (h : d.Plain) (hg : l.greatest ≤ 15) :
    ((Spelling.ofDecimal l d).significand : ℚ) * 10 ^ (Spelling.ofDecimal l d).last = d.value ∧
      (Spelling.ofDecimal l d).significand < 10 ^ 17 ∧
      d.exponent - 16 ≤ (Spelling.ofDecimal l d).last ∧
      (Spelling.ofDecimal l d).last ≤ d.exponent := by
  obtain ⟨z, hs, hl, hz⟩ := exists_spells (l := l) h hg
  have hpos : 0 < d.digits.length := List.length_pos_iff.mpr h.ne_nil
  have hlast : d.last = d.exponent + 1 - d.digits.length := rfl
  refine ⟨?_, ?_, by omega, by omega⟩
  · rw [hs, hl, Decimal.value, zpow_sub₀ (by norm_num), zpow_natCast]
    push_cast
    field_simp
  · have hlt : d.significand < 10 ^ d.digits.length := Text.ofDigitChars_lt h.isDigit
    calc (Spelling.ofDecimal l d).significand = 10 ^ z * d.significand := hs
      _ < 10 ^ z * 10 ^ d.digits.length := by gcongr
      _ = 10 ^ (d.digits.length + z) := by rw [← Nat.pow_add, Nat.add_comm]
      _ ≤ 10 ^ 17 := Nat.pow_le_pow_right (by decide) hz

/-- A decimal is never spelled as an integer. -/
theorem ofDecimal_isFloat (h : d.Plain) :
    (Spelling.ofDecimal l d).fraction ≠ [] ∨ (Spelling.ofDecimal l d).exponent ≠ none := by
  unfold Spelling.ofDecimal
  split
  · left
    split
    · exact List.append_ne_nil_of_right_ne_nil _ h.ne_nil
    · simp only [Spelling.integral]
      split
      · exact List.cons_ne_nil _ _
      · rename_i hd
        simpa using hd
  · exact Or.inr (Option.some_ne_none _)

theorem eq_of_mem_exponent {x : ℤ} (hx : x ∈ (Spelling.ofDecimal l d).exponent) :
    x = d.exponent := by
  unfold Spelling.ofDecimal at hx
  split at hx
  · split at hx <;> cases hx
  · exact (Option.some.inj hx).symm

/-- The exponent tells how large a decimal is. -/
theorem value_bounds (h : d.Plain) :
    (10 : ℚ) ^ d.exponent ≤ d.value ∧ d.value < 10 ^ (d.exponent + 1) := by
  obtain ⟨h1, h2⟩ := Text.ofDigitChars_bounds h.isDigit h.ne_nil h.head
  have hpos : 0 < d.digits.length := List.length_pos_iff.mpr h.ne_nil
  have h1' : (10 : ℚ) ^ (d.digits.length - 1) ≤ d.significand := by exact_mod_cast h1
  have h2' : (d.significand : ℚ) < 10 ^ d.digits.length := by exact_mod_cast h2
  unfold Decimal.value
  constructor
  · calc (10 : ℚ) ^ d.exponent = 10 ^ (d.digits.length - 1) * 10 ^ d.last := by
          rw [← zpow_natCast, ← zpow_add₀ (by norm_num), Decimal.last]
          congr 1
          omega
      _ ≤ d.significand * 10 ^ d.last := by gcongr
  · calc (d.significand : ℚ) * 10 ^ d.last < 10 ^ d.digits.length * 10 ^ d.last := by gcongr
      _ = 10 ^ (d.exponent + 1) := by
          rw [← zpow_natCast, ← zpow_add₀ (by norm_num), Decimal.last]
          congr 1
          omega

end

/-! ### Finite numbers -/

/-- The spelling of a finite number, apart from its sign. -/
def spelling (m : ℕ) (e : ℤ) : Spelling :=
  if m = 0 then ⟨['0'], ['0'], none⟩ else .ofDecimal doubleLayout (double.shortest m e)

/-- What is read where a number was written: its digits, scaled by their power of ten.  There is
nothing to read for a number that is not finite. -/
def reread : Binary → Option Binary
  | finite s m e => Numeral.float? s (spelling m e).significand (spelling m e).last
  | _ => none

/-- The significand of the written number has 53 bits, and its power of ten is small. -/
def Short : Binary → Prop
  | finite _ m e =>
    m = 0 ∨ (spelling m e).significand < 2 ^ 53 ∧ (spelling m e).last.natAbs ≤ 22
  | _ => False

section

variable {m : ℕ} {e : ℤ} {b : Binary}

theorem double_precision : double.precision ≤ 53 := le_rfl

theorem doubleText_finite (s : Bool) (hc : double.Canonical m e) :
    doubleText (finite s m e) = signText s ++ (spelling m e).text := by
  have hbody : (if m = 0 then ['0', '.', '0'] else (double.shortest m e).text doubleLayout) =
      (spelling m e).text := by
    unfold spelling
    split
    · rfl
    · rename_i hm
      exact text_ofDecimal (Format.shortest_spec double_precision hc (Nat.pos_of_ne_zero hm)).1 rfl
  unfold doubleText text?
  dsimp only
  rw [hbody, Option.getD_some]
  cases s <;> rfl

theorem proper_spelling (hc : double.Canonical m e) : (spelling m e).Proper := by
  unfold spelling
  split
  · exact ⟨isDigit_zeros 1, isDigit_zeros 1, List.cons_ne_nil _ _, fun _ => le_rfl⟩
  · rename_i hm
    exact proper_ofDecimal (Format.shortest_spec double_precision hc (Nat.pos_of_ne_zero hm)).1

/-- The least decimal exponent stays below half of the least number. -/
theorem ten_zpow_lt : (10 : ℚ) ^ (-325 : ℤ) < 1 / 2 * 2 ^ (-1074 : ℤ) := by
  have hnat : 2 * 2 ^ 1074 < 10 ^ 325 := by decide +kernel
  have hq : (2 : ℚ) * 2 ^ (1074 : ℤ) < 10 ^ (325 : ℤ) := by exact_mod_cast hnat
  rw [zpow_neg, zpow_neg, ← one_div, ← one_div, one_div_mul_one_div]
  exact one_div_lt_one_div_of_lt (by positivity) hq

/-- The greatest decimal exponent is beyond all numbers. -/
theorem lt_ten_zpow : (2 : ℚ) ^ (1024 : ℤ) < 10 ^ (309 : ℤ) := by
  have hnat : 2 ^ 1024 < 10 ^ 309 := by decide +kernel
  exact_mod_cast hnat

/-- What is rounded to a number of the format has an exponent in its range. -/
theorem exponent_bounds (hc : double.Canonical m e) (hm : 0 < m) :
    -325 ≤ (double.shortest m e).exponent ∧ (double.shortest m e).exponent ≤ 308 := by
  obtain ⟨hplain, hnear⟩ := Format.shortest_spec double_precision hc hm
  obtain ⟨h1, h2⟩ := value_bounds hplain
  generalize double.shortest m e = d at *
  have he : (-1074 : ℤ) ≤ e := hc.least
  have he' : e ≤ (971 : ℤ) := hc.greatest
  constructor
  · by_contra hlt
    have hhalf : (1 / 2 : ℚ) * 2 ^ e ≤ d.value := by
      have hm1 : (1 : ℚ) ≤ m := by exact_mod_cast hm
      have hgap := (double.gap_le m e).2
      have hbelow := hnear.below
      rw [le_div_iff₀ (by positivity)] at hbelow
      refine le_trans ?_ hbelow
      gcongr
      linarith
    have hleast : (1 / 2 : ℚ) * 2 ^ (-1074 : ℤ) ≤ 1 / 2 * 2 ^ e := by
      gcongr
      exact one_le_two
    have hpow : (10 : ℚ) ^ (d.exponent + 1) ≤ 10 ^ (-325 : ℤ) :=
      zpow_le_zpow_right₀ (by norm_num) (by omega)
    exact absurd (h2.trans_le hpow)
      (not_lt.mpr (ten_zpow_lt.le.trans (hleast.trans hhalf)))
  · by_contra hlt
    have hpow : (2 : ℚ) ^ (e + (53 : ℕ)) ≤ 2 ^ (1024 : ℤ) :=
      zpow_le_zpow_right₀ one_le_two (by push_cast; omega)
    have hpow' : (10 : ℚ) ^ (309 : ℤ) ≤ 10 ^ d.exponent :=
      zpow_le_zpow_right₀ (by norm_num) (by omega)
    exact absurd (h1.trans_lt ((hnear.upper hc).trans_le hpow))
      (not_lt.mpr (lt_ten_zpow.le.trans hpow'))

/-- What is written for a positive number. -/
theorem spelling_spec (hc : double.Canonical m e) (hm : 0 < m) :
    (spelling m e).significand < 10 ^ 17 ∧ -341 ≤ (spelling m e).last ∧ (spelling m e).last ≤ 308 ∧
      double.Near m e ((spelling m e).significand * 10 ^ (spelling m e).last) := by
  obtain ⟨hplain, hnear⟩ := Format.shortest_spec double_precision hc hm
  obtain ⟨hlow, hhigh⟩ := exponent_bounds hc hm
  obtain ⟨hv, hs, h1, h2⟩ := value_ofDecimal (l := doubleLayout) hplain (by decide)
  unfold spelling
  rw [if_neg hm.ne', hv]
  exact ⟨hs, by omega, by omega, hnear⟩

/-- Except for the largest number, what is rounded to a number stays below the ceiling. -/
theorem le_ceiling (hc : double.Canonical m e) (hmax : ¬ (m = 2 ^ 53 - 1 ∧ e = 971)) :
    ((m : ℚ) + 1 / 2) * 2 ^ e ≤ Numeral.ceiling := by
  have hceiling : ((Numeral.ceiling : ℕ) : ℚ) = (2 ^ 54 - 3) * 2 ^ 970 := by
    have hthree : ((2 ^ 54 - 3 : ℕ) : ℚ) = 2 ^ 54 - 3 := by norm_num
    rw [Numeral.ceiling, Nat.cast_mul, hthree, Nat.cast_pow, Nat.cast_ofNat]
  have hfits : m < 2 ^ 53 := hc.fits
  have he : e ≤ (971 : ℤ) := hc.greatest
  have hpow : (2 : ℚ) ^ e ≤ 2 ^ 970 * 2 := by
    rw [← pow_succ, ← zpow_natCast]
    exact zpow_le_zpow_right₀ one_le_two (by push_cast; omega)
  have hpow' : e ≤ 970 → (2 : ℚ) ^ e ≤ 2 ^ 970 := by
    intro hle
    rw [← zpow_natCast]
    exact zpow_le_zpow_right₀ one_le_two (by push_cast; omega)
  have hpos : (0 : ℚ) < 2 ^ 970 := pow_pos two_pos _
  rw [hceiling]
  generalize (2 : ℚ) ^ 970 = p at hpow hpow' hpos ⊢
  rcases Nat.lt_or_ge m (2 ^ 53 - 1) with hlt | hge
  · have hm : (m : ℚ) + 2 ≤ 2 ^ 53 := by exact_mod_cast (by omega : m + 2 ≤ 2 ^ 53)
    calc ((m : ℚ) + 1 / 2) * 2 ^ e ≤ (2 ^ 54 - 3) / 2 * (p * 2) := by
          gcongr
          linarith
      _ = (2 ^ 54 - 3) * p := by ring
  · have hm : (m : ℚ) + 1 ≤ 2 ^ 53 := by exact_mod_cast hfits
    have hle := hpow' (by omega)
    gcongr
    linarith

/-- **Every finite number is read as a number again.** -/
theorem isSome_reread (s : Bool) (hc : double.Canonical m e) :
    (reread (finite s m e)).isSome = true := by
  rcases Nat.eq_zero_or_pos m with rfl | hm
  · cases s <;> rfl
  · unfold reread
    by_cases hmax : m = 2 ^ 53 - 1 ∧ e = 971
    · -- the largest number is too close to the limit
      obtain ⟨rfl, rfl⟩ := hmax
      cases s <;> decide +kernel
    · obtain ⟨hs, hlow, hhigh, hnear⟩ := spelling_spec hc hm
      have hmp : Numeral.maxPower = 308 := rfl
      refine Numeral.isSome_float? s hs.le (by rw [hmp]; omega) (by rw [hmp]; omega) fun hx => ?_
      obtain ⟨k, hk⟩ := Int.eq_ofNat_of_zero_le hx
      rw [hk] at hnear ⊢
      have habove := hnear.above
      rw [div_le_iff₀ (by positivity)] at habove
      have hq := habove.trans (le_ceiling hc hmax)
      exact_mod_cast hq

theorem isSome_reread_iff (h : double.Has b) : (reread b).isSome = true ↔ b.isFinite = true := by
  cases b with
  | finite s m e => exact iff_of_true (isSome_reread s h) rfl
  | _ => exact Iff.rfl

/-- **Short decimals are read back.** -/
theorem reread_of_short (h : double.Has b) (hb : Short b) : reread b = some b := by
  cases b with
  | finite s m e =>
      have hc : double.Canonical m e := h
      rcases Nat.eq_zero_or_pos m with rfl | hm
      · -- there is one zero of each sign
        obtain rfl : e = -1074 := hc.full.resolve_right (by decide)
        cases s <;> rfl
      · obtain ⟨hs, hx⟩ := hb.resolve_left hm.ne'
        exact Numeral.float?_exact s hs hx hc hm (spelling_spec hc hm).2.2.2
  | _ => exact hb.elim

/-- Longer decimals may be read as a neighbour of the number. -/
example : reread (finite false (2 ^ 53 - 2) 971) = some (finite false (2 ^ 53 - 1) 971) := by
  decide +kernel

/-- What is read where a finite number was written. -/
theorem numberToken_doubleText (s : Bool) (hc : double.Canonical m e) {rest : List UInt8}
    (hr : Ends rest) :
    numberToken (encode (doubleText (finite s m e)) ++ rest) =
      (reread (finite s m e)).map fun b => (.float b, rest) := by
  have hproper := proper_spelling hc
  have hmax : Numeral.maxSignificand = 2 ^ 64 - 1 := rfl
  have hexp : Numeral.maxExponent = 2 ^ 31 - 1 := rfl
  have hfloat : (spelling m e).fraction ≠ [] ∨ (spelling m e).exponent ≠ none := by
    unfold spelling
    split
    · exact Or.inl (List.cons_ne_nil _ _)
    · rename_i hm
      exact ofDecimal_isFloat (Format.shortest_spec double_precision hc (Nat.pos_of_ne_zero hm)).1
  have hsignificand : (spelling m e).significand ≤ Numeral.maxSignificand := by
    rcases Nat.eq_zero_or_pos m with rfl | hm
    · exact Nat.zero_le _
    · have hs := (spelling_spec hc hm).1
      omega
  have hexponent : ∀ x ∈ (spelling m e).exponent, x.natAbs ≤ Numeral.maxExponent := by
    intro x hx
    unfold spelling at hx
    split at hx
    · cases hx
    · rename_i hm
      obtain ⟨h1, h2⟩ := exponent_bounds hc (Nat.pos_of_ne_zero hm)
      obtain rfl := eq_of_mem_exponent hx
      omega
  rw [doubleText_finite s hc, numberToken_spelling hproper s hr,
    hproper.numeral_isFloat hfloat s hsignificand hexponent]
  unfold reread
  rw [Option.map_map]
  rfl

end

end ReadThrough.Json
