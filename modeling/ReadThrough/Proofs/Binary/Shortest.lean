import Mathlib.Data.List.DropRight
import ReadThrough.Binary.Shortest
import ReadThrough.Proofs.Binary.Rounding
import ReadThrough.Proofs.Text.Digits

/-! # Shortest decimals

The decimal that is written for a number is rounded to that number, and seventeen digits suffice.

* **Interval** (`Binary.Format.holds_interval_iff`).  The test of the search is whether a decimal is
  rounded to the number.
* **Magnitude** (`Binary.Interval.magnitude_bounds`).  The search starts at the first digit.
* **Search** (`Binary.Format.search_spec`).  On the grid of seventeen digits one of the neighbours
  of the number is rounded to it, so the search ends with a hit.
* **Digits** (`Binary.Format.shortest_spec`).  What is written has at most seventeen digits, of
  which the first one is not zero. -/

namespace ReadThrough.Binary

variable {f : Format} {m : ℕ} {e : ℤ}

/-! ### The interval -/

namespace Format

/-- The ends and the middle of an interval as rational numbers. -/
theorem interval_spec (f : Format) (hm : 0 < m) (e : ℤ) :
    0 < (f.interval m e).den ∧
      ((f.interval m e).low : ℚ) / (f.interval m e).den = (m - f.gap m e) * 2 ^ e ∧
      ((f.interval m e).value : ℚ) / (f.interval m e).den = m * 2 ^ e ∧
      ((f.interval m e).high : ℚ) / (f.interval m e).den = (m + 1 / 2) * 2 ^ e := by
  obtain ⟨a, b, hr, hb, hab, -⟩ := exists_ratio 1 (e - 2)
  have hfour : (a : ℚ) / b = 2 ^ e / 4 := by
    rw [hab, Nat.cast_one, one_mul, zpow_sub₀ two_ne_zero]
    norm_num
  unfold interval gap
  rw [hr, Nat.one_shiftLeft]
  dsimp only
  refine ⟨hb, ?_, ?_, ?_⟩
  · push_cast
    rw [mul_div_assoc, hfour]
    split
    · rw [Nat.cast_sub (by omega)]
      push_cast
      ring
    · rw [Nat.cast_sub (by omega)]
      push_cast
      ring
  · push_cast
    rw [mul_div_assoc, hfour]
    ring
  · push_cast
    rw [mul_div_assoc, hfour]
    ring

/-- A decimal is in the interval of a number if and only if it is rounded to it. -/
theorem holds_interval_iff (hm : 0 < m) (n : ℕ) {d : ℕ} (hd : 0 < d) :
    (f.interval m e).holds n d = true ↔ f.Near m e (n / d) := by
  obtain ⟨hden, hlow, -, hhigh⟩ := f.interval_spec hm e
  have hdq : (0 : ℚ) < d := by exact_mod_cast hd
  have hden' : (0 : ℚ) < (f.interval m e).den := by exact_mod_cast hden
  have hp : (0 : ℚ) < 2 ^ e := by positivity
  have hl : (f.interval m e).low * d ≤ n * (f.interval m e).den ↔
      (m : ℚ) - f.gap m e ≤ n / d / 2 ^ e := by
    rw [le_div_iff₀ hp, ← hlow, div_le_div_iff₀ hden' hdq]
    exact_mod_cast Iff.rfl
  have hl' : (f.interval m e).low * d < n * (f.interval m e).den ↔
      (m : ℚ) - f.gap m e < n / d / 2 ^ e := by
    rw [lt_div_iff₀ hp, ← hlow, div_lt_div_iff₀ hden' hdq]
    exact_mod_cast Iff.rfl
  have hh : n * (f.interval m e).den ≤ (f.interval m e).high * d ↔
      (n : ℚ) / d / 2 ^ e ≤ m + 1 / 2 := by
    rw [div_le_iff₀ hp, ← hhigh, div_le_div_iff₀ hdq hden']
    exact_mod_cast Iff.rfl
  have hh' : n * (f.interval m e).den < (f.interval m e).high * d ↔
      (n : ℚ) / d / 2 ^ e < m + 1 / 2 := by
    rw [div_lt_iff₀ hp, ← hhigh, div_lt_div_iff₀ hdq hden']
    exact_mod_cast Iff.rfl
  have hclosed : (f.interval m e).closed = decide (m % 2 = 0) := rfl
  unfold Interval.holds
  by_cases heven : m % 2 = 0
  · simp only [hclosed, heven, decide_true, if_true, Bool.and_eq_true, decide_eq_true_eq, hl, hh]
    exact ⟨fun h => ⟨h.1, h.2, fun _ => heven⟩, fun h => ⟨h.below, h.above⟩⟩
  · simp only [hclosed, heven, decide_false, Bool.false_eq_true, if_false, Bool.and_eq_true,
      decide_eq_true_eq, hl', hh']
    constructor
    · rintro ⟨h1, h2⟩
      refine ⟨h1.le, h2.le, ?_⟩
      rintro (he | he)
      · exact absurd he h1.ne'
      · exact absurd he h2.ne
    · intro h
      exact ⟨lt_of_le_of_ne h.below fun he => heven (h.even (Or.inl he.symm)),
        lt_of_le_of_ne h.above fun he => heven (h.even (Or.inr he))⟩

end Format

/-! ### Magnitude -/

namespace Interval

/-- The magnitude is the exponent of the first digit. -/
theorem magnitude_bounds (i : Interval) (hd : 0 < i.den) (hv : 0 < i.value) :
    (10 : ℚ) ^ i.magnitude ≤ i.value / i.den ∧ (i.value : ℚ) / i.den < 10 ^ (i.magnitude + 1) := by
  have hdq : (0 : ℚ) < i.den := by exact_mod_cast hd
  have hvq : (0 : ℚ) < i.value := by exact_mod_cast hv
  unfold magnitude
  split
  · rename_i hle
    obtain ⟨h1, h2⟩ := Text.length_toDigits_bounds (Nat.div_pos hle hd)
    generalize hj : (Nat.toDigits 10 (i.value / i.den)).length = j at h1 h2 ⊢
    have hpos : 0 < j := hj ▸ Nat.length_toDigits_pos
    rw [show (j : ℤ) - 1 = ((j - 1 : ℕ) : ℤ) by omega,
      show ((j - 1 : ℕ) : ℤ) + 1 = (j : ℤ) by omega, zpow_natCast, zpow_natCast]
    constructor
    · rw [le_div_iff₀ hdq]
      exact_mod_cast (Nat.le_div_iff_mul_le hd).mp h1
    · rw [div_lt_iff₀ hdq]
      exact_mod_cast (Nat.div_lt_iff_lt_mul hd).mp h2
  · rename_i hlt
    obtain ⟨h1, h2⟩ := Text.length_toDigits_bounds (Nat.div_pos (not_le.mp hlt).le hv)
    generalize hj : (Nat.toDigits 10 (i.den / i.value)).length = j at h1 h2 ⊢
    have hpos : 0 < j := hj ▸ Nat.length_toDigits_pos
    have hlow : (10 : ℚ) ^ (j - 1) * i.value ≤ i.den := by
      exact_mod_cast (Nat.le_div_iff_mul_le hv).mp h1
    have hhigh : (i.den : ℚ) < 10 ^ j * i.value := by
      exact_mod_cast (Nat.div_lt_iff_lt_mul hv).mp h2
    dsimp only
    split
    · rename_i he
      -- the number is a power of ten
      have hdown : (10 : ℚ) ^ (1 - (j : ℤ)) = ((10 : ℚ) ^ (j - 1))⁻¹ := by
        rw [show 1 - (j : ℤ) = -((j - 1 : ℕ) : ℤ) by omega, zpow_neg, zpow_natCast]
      have he' : (i.den : ℚ) ≤ i.value * 10 ^ (j - 1) := by exact_mod_cast he
      rw [zpow_add_one₀ (by norm_num), hdown]
      constructor
      · rw [le_div_iff₀ hdq, inv_mul_le_iff₀ (by positivity), mul_comm]
        exact he'
      · rw [div_lt_iff₀ hdq, inv_mul_eq_div, div_mul_eq_mul_div, lt_div_iff₀ (by positivity)]
        linarith
    · rename_i he
      have hdown : (10 : ℚ) ^ (-(j : ℤ)) = ((10 : ℚ) ^ j)⁻¹ := by rw [zpow_neg, zpow_natCast]
      have hdown' : (10 : ℚ) ^ (-(j : ℤ) + 1) = ((10 : ℚ) ^ (j - 1))⁻¹ := by
        rw [show -(j : ℤ) + 1 = -((j - 1 : ℕ) : ℤ) by omega, zpow_neg, zpow_natCast]
      have he' : (i.value : ℚ) * 10 ^ (j - 1) < i.den := by exact_mod_cast not_le.mp he
      rw [hdown, hdown']
      constructor
      · rw [le_div_iff₀ hdq, inv_mul_le_iff₀ (by positivity)]
        exact hhigh.le
      · rw [div_lt_iff₀ hdq, lt_inv_mul_iff₀ (by positivity), mul_comm]
        exact he'

end Interval

/-! ### The search -/

/-- Both parts of a power of ten. -/
theorem ten_zpow (x : ℤ) : ((10 ^ x.toNat : ℕ) : ℚ) / (10 ^ (-x).toNat : ℕ) = 10 ^ x := by
  push_cast
  rw [← zpow_natCast, ← zpow_natCast, ← zpow_sub₀ (by norm_num)]
  congr 1
  omega

namespace Format

variable {x : ℤ} {q : ℚ}

/-- What is strictly within the interval of a number is rounded to it. -/
theorem near_of_lt (hl : (m - f.gap m e) * 2 ^ e < q) (hu : q < (m + 1 / 2) * 2 ^ e) :
    f.Near m e q := by
  rw [← lt_div_iff₀ (by positivity)] at hl
  rw [← div_lt_iff₀ (by positivity)] at hu
  refine ⟨hl.le, hu.le, ?_⟩
  rintro (he | he) <;> linarith

/-- The test of the search at a point of a grid. -/
theorem holds_grid_iff (hm : 0 < m) (d : ℕ) (x : ℤ) :
    (f.interval m e).holds (d * Nat.pow 10 x.toNat) (Nat.pow 10 (-x).toNat) = true ↔
      f.Near m e (d * 10 ^ x) := by
  rw [← ten_zpow x, ← mul_div_assoc, ← Nat.cast_mul]
  exact holds_interval_iff hm _ (Nat.pow_pos (by decide))

/-- The points of a grid next to a number. -/
theorem grid_bounds (f : Format) (hm : 0 < m) (e x : ℤ) :
    ∃ d : ℕ, (f.interval m e).value * Nat.pow 10 (-x).toNat /
        ((f.interval m e).den * Nat.pow 10 x.toNat) = d ∧
      (d : ℚ) * 10 ^ x ≤ m * 2 ^ e ∧ (m : ℚ) * 2 ^ e < ((d + 1 : ℕ) : ℚ) * 10 ^ x := by
  obtain ⟨hden, -, hvalue, -⟩ := f.interval_spec hm e
  refine ⟨_, rfl, ?_⟩
  generalize (f.interval m e).value = v at *
  generalize (f.interval m e).den = den at *
  have hup : 0 < 10 ^ x.toNat := Nat.pow_pos (by decide)
  have hdown : 0 < 10 ^ (-x).toNat := Nat.pow_pos (by decide)
  have hpos : 0 < den * 10 ^ x.toNat := Nat.mul_pos hden hup
  have h1 := Nat.div_mul_le_self (v * 10 ^ (-x).toNat) (den * 10 ^ x.toNat)
  have h2 := Nat.lt_mul_of_div_lt
    (Nat.lt_succ_self (v * 10 ^ (-x).toNat / (den * 10 ^ x.toNat))) hpos
  simp only [Nat.pow_eq]
  generalize v * 10 ^ (-x).toNat / (den * 10 ^ x.toNat) = d at *
  have hdenq : (0 : ℚ) < den := by exact_mod_cast hden
  have hupq : (0 : ℚ) < (10 ^ x.toNat : ℕ) := by exact_mod_cast hup
  have hdownq : (0 : ℚ) < (10 ^ (-x).toNat : ℕ) := by exact_mod_cast hdown
  rw [← hvalue, ← ten_zpow x, ← mul_div_assoc, ← mul_div_assoc, div_le_div_iff₀ hdownq hdenq,
    div_lt_div_iff₀ hdenq hdownq]
  constructor
  · rw [mul_assoc, mul_comm ((10 ^ x.toNat : ℕ) : ℚ)]
    exact_mod_cast h1
  · rw [mul_assoc, mul_comm ((10 ^ x.toNat : ℕ) : ℚ)]
    exact_mod_cast h2

/-- A hit is rounded to the number, and no more than one step above it. -/
theorem onGrid_some (hm : 0 < m) {d : ℕ} (h : (f.interval m e).onGrid x = some d) :
    f.Near m e (d * 10 ^ x) ∧ (d : ℚ) * 10 ^ x ≤ m * 2 ^ e + 10 ^ x := by
  obtain ⟨b, hb, hle, -⟩ := f.grid_bounds hm e x
  have hp : (0 : ℚ) < 10 ^ x := by positivity
  have hbelow := f.holds_grid_iff (e := e) hm b x
  have habove := f.holds_grid_iff (e := e) hm (b + 1) x
  -- the hit is one of the two points, and it is in the interval
  have both : (d = b ∧ f.Near m e (b * 10 ^ x)) ∨
      (d = b + 1 ∧ f.Near m e ((b + 1 : ℕ) * 10 ^ x)) := by
    unfold Interval.onGrid at h
    simp only [hb] at h
    split at h
    · rename_i h1 h2
      have hd := Option.some.inj h
      split at hd
      · exact Or.inl ⟨hd.symm, hbelow.mp h1⟩
      · split at hd
        · exact Or.inr ⟨hd.symm, habove.mp h2⟩
        · split at hd
          · exact Or.inl ⟨hd.symm, hbelow.mp h1⟩
          · exact Or.inr ⟨hd.symm, habove.mp h2⟩
    · rename_i h1 _
      exact Or.inl ⟨(Option.some.inj h).symm, hbelow.mp h1⟩
    · rename_i _ h2
      exact Or.inr ⟨(Option.some.inj h).symm, habove.mp h2⟩
    · cases h
  rcases both with ⟨rfl, hn⟩ | ⟨rfl, hn⟩
  · exact ⟨hn, by linarith⟩
  · refine ⟨hn, ?_⟩
    push_cast
    linarith

/-- There is a hit on every grid whose step is less than the length of the interval. -/
theorem onGrid_isSome (hm : 0 < m) (hx : (10 : ℚ) ^ x < (f.gap m e + 1 / 2) * 2 ^ e) :
    ((f.interval m e).onGrid x).isSome = true := by
  obtain ⟨b, hb, hle, hlt⟩ := f.grid_bounds hm e x
  have hg := (f.gap_le m e).1
  have hp : (0 : ℚ) < 2 ^ e := by positivity
  have hbelow := f.holds_grid_iff (e := e) hm b x
  have habove := f.holds_grid_iff (e := e) hm (b + 1) x
  unfold Interval.onGrid
  simp only [hb]
  split
  · rfl
  · rfl
  · rfl
  · rename_i h1 h2
    rw [← Bool.not_eq_true] at h1 h2
    -- both points are outside, so the interval is between them
    have hout : (b : ℚ) * 10 ^ x ≤ (m - f.gap m e) * 2 ^ e := by
      by_contra hlt'
      refine h1 (hbelow.mpr (near_of_lt (not_le.mp hlt') (hle.trans_lt ?_)))
      gcongr
      linarith
    have hout' : (m + 1 / 2) * 2 ^ e ≤ ((b + 1 : ℕ) : ℚ) * 10 ^ x := by
      by_contra hlt'
      refine h2 (habove.mpr (near_of_lt (lt_trans ?_ hlt) (not_le.mp hlt')))
      gcongr
      linarith
    push_cast at hout'
    linarith

/-- The step of the grid of seventeen digits is less than the length of the interval. -/
theorem grid17_lt (hp : f.precision ≤ 53) (hc : f.Canonical m e) (hx : (10 : ℚ) ^ x ≤ m * 2 ^ e) :
    (10 : ℚ) ^ (x + 1 - 17) < (f.gap m e + 1 / 2) * 2 ^ e := by
  have hstep : (10 : ℚ) ^ (x + 1 - 17) = 10 ^ x / 10 ^ 16 := by
    rw [show x + 1 - 17 = x - (16 : ℕ) by push_cast; ring, zpow_sub₀ (by norm_num), zpow_natCast]
  have hpos : (0 : ℚ) < 2 ^ e := by positivity
  rw [hstep, div_lt_iff₀ (by positivity)]
  refine hx.trans_lt ?_
  have hscale : (m : ℚ) < (f.gap m e + 1 / 2) * 10 ^ 16 := by
    unfold gap
    split
    · rename_i h
      have hm : m ≤ 2 ^ 52 := h.1 ▸ Nat.pow_le_pow_right (by decide) (by omega)
      have hm' : (m : ℚ) ≤ 2 ^ 52 := by exact_mod_cast hm
      linarith
    · have hm : m ≤ 2 ^ 53 := hc.fits.le.trans (Nat.pow_le_pow_right (by decide) hp)
      have hm' : (m : ℚ) ≤ 2 ^ 53 := by exact_mod_cast hm
      linarith
  calc (m : ℚ) * 2 ^ e < (f.gap m e + 1 / 2) * 10 ^ 16 * 2 ^ e := by gcongr
    _ = (f.gap m e + 1 / 2) * 2 ^ e * 10 ^ 16 := by ring

end Format

/-- The search ends at the first grid with a hit. -/
theorem Interval.search_eq (i : Interval) (x : ℤ) (fuel : ℕ) {n k : ℕ} (hn : n ≤ k)
    (hk : k < n + fuel)
    (h : (i.onGrid (x + 1 - k)).isSome = true) :
    ∃ j d, n ≤ j ∧ j ≤ k ∧ i.onGrid (x + 1 - j) = some d ∧
      i.search x n fuel = (d, x + 1 - j) := by
  induction fuel generalizing n with
  | zero => omega
  | succ fuel ih =>
      unfold search
      cases hd : i.onGrid (x + 1 - n) with
      | some d => exact ⟨n, d, le_rfl, hn, hd, rfl⟩
      | none =>
          have hne : n ≠ k := by
            rintro rfl
            rw [hd] at h
            cases h
          obtain ⟨j, d, hj, hjk, hg, hs⟩ := ih (n := n + 1) (by omega) (by omega)
          exact ⟨j, d, by omega, hjk, hg, hs⟩

/-- **Seventeen digits suffice.**  The search finds a decimal that is rounded to the number, and it
has at most seventeen digits. -/
theorem Format.search_spec (hp : f.precision ≤ 53) (hc : f.Canonical m e) (hm : 0 < m) :
    ∃ n x, (f.interval m e).search (f.interval m e).magnitude 1 17 = (n, x) ∧ n ≤ 10 ^ 17 ∧
      f.Near m e (n * 10 ^ x) := by
  obtain ⟨hden, -, hvalue, -⟩ := f.interval_spec hm e
  have hpos : (0 : ℚ) < (f.interval m e).value := by
    have hq : (0 : ℚ) < (f.interval m e).value / (f.interval m e).den := by
      rw [hvalue]
      positivity
    exact (div_pos_iff_of_pos_right (by exact_mod_cast hden)).mp hq
  obtain ⟨hlow, hhigh⟩ := (f.interval m e).magnitude_bounds hden (by exact_mod_cast hpos)
  rw [hvalue] at hlow hhigh
  generalize (f.interval m e).magnitude = x at *
  have h17 := f.onGrid_isSome hm (f.grid17_lt hp hc hlow)
  obtain ⟨j, d, hj, hjk, hg, hs⟩ := (f.interval m e).search_eq x 17 (n := 1) (k := 17)
    (by decide) (by decide) h17
  obtain ⟨hn, hle⟩ := onGrid_some hm hg
  refine ⟨d, x + 1 - j, hs, ?_, hn⟩
  -- there are `10 ^ j` steps up to the next power of ten
  have hstep : (10 : ℚ) ^ (x + 1) = 10 ^ j * 10 ^ (x + 1 - j) := by
    rw [← zpow_natCast, ← zpow_add₀ (by norm_num)]
    congr 1
    ring
  have hd : (d : ℚ) * 10 ^ (x + 1 - j) < (10 ^ j + 1) * 10 ^ (x + 1 - j) := by linarith
  have hd' : (d : ℚ) < 10 ^ j + 1 := lt_of_mul_lt_mul_right hd (by positivity)
  have hd'' : d < 10 ^ j + 1 := by exact_mod_cast hd'
  have hpow : 10 ^ j ≤ 10 ^ 17 := Nat.pow_le_pow_right (by decide) hjk
  omega

/-! ### Digits -/

namespace Decimal

/-- The digits as one number. -/
def significand (d : Decimal) : ℕ := Nat.ofDigitChars 10 d.digits 0

/-- The exponent of the last digit. -/
def last (d : Decimal) : ℤ := d.exponent + 1 - d.digits.length

/-- The number that a decimal stands for. -/
def value (d : Decimal) : ℚ := d.significand * 10 ^ d.last

/-- There are digits, the first one is not zero, and they are not too many for 64 bits. -/
structure Plain (d : Decimal) : Prop where
  isDigit : ∀ c ∈ d.digits, c.isDigit = true
  ne_nil : d.digits ≠ []
  head : d.digits.head? ≠ some '0'
  length_le : d.digits.length ≤ 17

/-- The digits of a number are those of its decimal, with zeros after them. -/
theorem exists_zeros (n : ℕ) (x : ℤ) :
    ∃ z, Nat.toDigits 10 n = (ofScaled n x).digits ++ List.replicate z '0' := by
  refine ⟨((Nat.toDigits 10 n).rtakeWhile (· == '0')).length, ?_⟩
  have hz : (Nat.toDigits 10 n).rtakeWhile (· == '0') =
      List.replicate ((Nat.toDigits 10 n).rtakeWhile (· == '0')).length '0' := by
    refine List.eq_replicate_iff.mpr ⟨rfl, fun c hc => ?_⟩
    simpa using List.mem_rtakeWhile_imp hc
  rw [← hz]
  exact List.rdropWhile_append_rtakeWhile.symm

/-- Zeros at the end only move the exponent. -/
theorem ofScaled_spec {n : ℕ} (hn : 0 < n) (hle : n ≤ 10 ^ 17) (x : ℤ) :
    (ofScaled n x).Plain ∧ (ofScaled n x).value = n * 10 ^ x := by
  obtain ⟨z, hz⟩ := exists_zeros n x
  have hvalue : 10 ^ z * (ofScaled n x).significand = n := by
    rw [significand, ← Nat.ofDigitChars_replicate_zero, ← Nat.ofDigitChars_append, ← hz,
      Nat.ofDigitChars_ten_toDigits]
  have hlen : (Nat.toDigits 10 n).length = (ofScaled n x).digits.length + z := by
    rw [hz, List.length_append, List.length_replicate]
  have hne : (ofScaled n x).digits ≠ [] := by
    intro h
    rw [significand, h, Nat.ofDigitChars_nil, Nat.mul_zero] at hvalue
    omega
  have hhead : (ofScaled n x).digits.head? = (Nat.toDigits 10 n).head? := by
    rw [hz, List.head?_append_of_ne_nil _ hne]
  refine ⟨⟨fun c hc => ?_, hne, ?_, ?_⟩, ?_⟩
  · refine Text.isDigit_toDigits (n := n) ?_
    rw [hz]
    exact List.mem_append_left _ hc
  · rw [hhead]
    exact Text.head?_toDigits hn
  · rcases lt_or_eq_of_le hle with hlt | rfl
    · have h17 := (Nat.length_toDigits_le_iff (b := 10) (by decide) (by decide)).mpr hlt
      omega
    · have hd : (ofScaled (10 ^ 17) x).digits = ['1'] := by
        show (((Nat.toDigits 10 (10 ^ 17)).reverse.dropWhile (· == '0')).reverse) = _
        decide +kernel
      rw [hd]
      decide
  · have hlast : (ofScaled n x).last = x + z := by
      show x + ((Nat.toDigits 10 n).length : ℤ) - 1 + 1 - ((ofScaled n x).digits.length : ℤ) = x + z
      rw [hlen]
      push_cast
      ring
    have hvalueq : (10 : ℚ) ^ z * (ofScaled n x).significand = n := by exact_mod_cast hvalue
    rw [value, hlast, zpow_add₀ (by norm_num), zpow_natCast, ← hvalueq]
    ring

end Decimal

/-- **Shortest decimals.**  What is written for a number is rounded to it. -/
theorem Format.shortest_spec (hp : f.precision ≤ 53) (hc : f.Canonical m e) (hm : 0 < m) :
    (f.shortest m e).Plain ∧ f.Near m e (f.shortest m e).value := by
  obtain ⟨n, x, hs, hle, hn⟩ := f.search_spec hp hc hm
  have hpos : 0 < n := by
    rcases Nat.eq_zero_or_pos n with rfl | h
    · -- zero is not rounded to a positive number
      have hb := hn.below
      have hg := (f.gap_le m e).2
      have hm1 : (1 : ℚ) ≤ m := by exact_mod_cast hm
      rw [Nat.cast_zero, zero_mul, zero_div] at hb
      linarith
    · exact h
  obtain ⟨hplain, hvalue⟩ := Decimal.ofScaled_spec hpos hle x
  have hd : f.shortest m e = .ofScaled n x := by
    unfold shortest
    simp only [hs]
  rw [hd]
  exact ⟨hplain, hvalue.symm ▸ hn⟩

end ReadThrough.Binary
