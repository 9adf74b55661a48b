import Mathlib.Algebra.Order.Field.Power
import Mathlib.Data.Rat.Cast.Order
import Mathlib.Tactic.FieldSimp
import Mathlib.Tactic.Linarith
import Mathlib.Tactic.Positivity
import Mathlib.Tactic.Ring
import ReadThrough.Binary

/-! # Rounding

What the integer arithmetic of `Binary` means for rational numbers.

* **Nearest integers** (`Binary.Nearest`).  `Binary.roundDiv` gives the nearest natural number to a
  fraction, the even one of two (`Binary.nearest_roundDiv`).
* **Exponents** (`Binary.Format.Fills`).  A positive number has one exponent at which it fills the
  mantissa of a format (`Binary.Format.fills_exponentFor`).
* **Rounding.**  A fraction is rounded to a finite number if and only if it is below the limit of
  the format (`Binary.Format.isFinite_round_iff`); rounding is monotone
  (`Binary.Format.round_mono`) and leaves what the format can express as it is
  (`Binary.Format.round_exact`).  What is closer to a number of the format than to its neighbours
  is rounded to it (`Binary.Format.round_of_near`). -/

namespace ReadThrough.Binary

/-- The absolute value of a finite number. -/
def magnitude : Binary → ℚ
  | finite _ m e => m * 2 ^ e
  | _ => 0

/-- A ratio is a fraction of what its parts say. -/
theorem exists_ratio (m : ℕ) (e : ℤ) :
    ∃ a b : ℕ, ratio m e = (a, b) ∧ 0 < b ∧ (a : ℚ) / b = m * 2 ^ e ∧ (0 < m → 0 < a) := by
  by_cases he : 0 ≤ e
  · obtain ⟨n, rfl⟩ := Int.eq_ofNat_of_zero_le he
    refine ⟨m * 2 ^ n, 1, ?_, Nat.one_pos, by simp, fun hm => by positivity⟩
    simp [ratio, Nat.shiftLeft_eq]
  · obtain ⟨n, rfl⟩ : ∃ n : ℕ, e = -(n : ℤ) := ⟨(-e).toNat, by omega⟩
    refine ⟨m, 2 ^ n, ?_, by positivity, by simp [div_eq_mul_inv], id⟩
    unfold ratio
    rw [if_neg he, neg_neg, Int.toNat_natCast, Nat.one_shiftLeft]

/-! ### Nearest integers -/

/-- A natural number is the nearest one, and even if there are two. -/
structure Nearest (q : ℚ) (n : ℕ) : Prop where
  below : (n : ℚ) - 1 / 2 ≤ q
  above : q ≤ n + 1 / 2
  even : q = n - 1 / 2 ∨ q = n + 1 / 2 → n % 2 = 0

theorem nearest_roundDiv (num : ℕ) {den : ℕ} (hd : 0 < den) :
    Nearest (num / den) (roundDiv num den) := by
  have hdq : (0 : ℚ) < den := by exact_mod_cast hd
  have hq : (num : ℚ) / den = (num / den : ℕ) + ((num % den : ℕ) : ℚ) / den := by
    have hn : ((num / den * den + num % den : ℕ) : ℚ) = num := by rw [Nat.div_add_mod']
    rw [← hn]
    push_cast
    field_simp
  -- where the remainder lies relative to the half
  have hlt : ((num % den : ℕ) : ℚ) / den < 1 / 2 ↔ 2 * (num % den) < den := by
    rw [div_lt_div_iff₀ hdq two_pos, one_mul, mul_comm]
    exact_mod_cast Iff.rfl
  have hgt : 1 / 2 < ((num % den : ℕ) : ℚ) / den ↔ den < 2 * (num % den) := by
    rw [div_lt_div_iff₀ two_pos hdq, one_mul, mul_comm]
    exact_mod_cast Iff.rfl
  have hr0 : 0 ≤ ((num % den : ℕ) : ℚ) / den := by positivity
  have hr1 : ((num % den : ℕ) : ℚ) / den < 1 :=
    (div_lt_one hdq).mpr (by exact_mod_cast Nat.mod_lt num hd)
  rw [hq]
  unfold roundDiv
  generalize num / den = a at *
  generalize ((num % den : ℕ) : ℚ) / den = x at *
  dsimp only
  split
  · rename_i h
    have hx := hlt.mpr h
    refine ⟨by linarith, by linarith, ?_⟩
    rintro (he | he) <;> linarith
  · rename_i h
    have hx := not_lt.mp (mt hlt.mp h)
    split
    · rename_i h'
      have hx' := hgt.mpr h'
      refine ⟨?_, ?_, ?_⟩ <;> push_cast
      · linarith
      · linarith
      · rintro (he | he) <;> linarith
    · rename_i h'
      obtain rfl : x = 1 / 2 := le_antisymm (not_lt.mp (mt hgt.mp h')) hx
      split
      · rename_i heven
        exact ⟨by linarith, le_rfl, fun _ => heven⟩
      · refine ⟨?_, ?_, fun _ => by omega⟩ <;> push_cast <;> linarith

theorem Nearest.mono {q q' : ℚ} {n n' : ℕ} (h : Nearest q n) (h' : Nearest q' n') (hq : q ≤ q') :
    n ≤ n' := by
  by_contra hn
  have hle : n' + 1 ≤ n := by omega
  have hleq : (n' : ℚ) + 1 ≤ n := by exact_mod_cast hle
  have hb := h.below
  have ha := h'.above
  -- both are ties between the same two numbers, of which only one is even
  have he : (n : ℚ) = n' + 1 := by linarith
  have hen : n = n' + 1 := by exact_mod_cast he
  have h1 := h.even (Or.inl (by linarith))
  have h2 := h'.even (Or.inr (by linarith))
  omega

theorem Nearest.unique {q : ℚ} {n n' : ℕ} (h : Nearest q n) (h' : Nearest q n') : n = n' :=
  Nat.le_antisymm (h.mono h' le_rfl) (h'.mono h le_rfl)

theorem nearest_natCast (n : ℕ) : Nearest n n :=
  ⟨by linarith, by linarith, by rintro (h | h) <;> linarith⟩

/-! ### Exponents -/

namespace Format

/-- A format has room for two mantissas that fill it, and for an exponent. -/
structure Regular (f : Format) : Prop where
  precision : 2 ≤ f.precision
  range : f.minExponent ≤ f.maxExponent

theorem double_regular : double.Regular := ⟨by decide, by decide⟩

variable {f : Format} {q q' : ℚ} {e e' : ℤ}

/-- The exponent at which a number fills the mantissa of the format, or the least one there is. -/
structure Fills (f : Format) (q : ℚ) (e : ℤ) : Prop where
  least : f.minExponent ≤ e
  upper : q < 2 ^ (e + f.precision)
  lower : e = f.minExponent ∨ 2 ^ (e + f.precision - 1) ≤ q

theorem Fills.mono (h : f.Fills q e) (h' : f.Fills q' e') (hq : q ≤ q') : e ≤ e' := by
  rcases h.lower with he | hl
  · exact he ▸ h'.least
  · have hlt : (2 : ℚ) ^ (e + f.precision - 1) < 2 ^ (e' + f.precision) :=
      (hl.trans hq).trans_lt h'.upper
    have he := (zpow_lt_zpow_iff_right₀ one_lt_two).mp hlt
    omega

theorem Fills.unique (h : f.Fills q e) (h' : f.Fills q e') : e = e' :=
  le_antisymm (h.mono h' le_rfl) (h'.mono h le_rfl)

/-- A fraction lies between powers of two that the lengths of its parts tell. -/
theorem log2_bounds {num den : ℕ} (hn : 0 < num) (hd : 0 < den) :
    (2 : ℚ) ^ ((num.log2 : ℤ) - den.log2 - 1) < num / den ∧
      (num : ℚ) / den < 2 ^ ((num.log2 : ℤ) - den.log2 + 1) := by
  have hdq : (0 : ℚ) < den := by exact_mod_cast hd
  have two : (2 : ℚ) ≠ 0 := two_ne_zero
  have hn1 : (2 : ℚ) ^ num.log2 ≤ num := by exact_mod_cast Nat.log2_self_le hn.ne'
  have hn2 : (num : ℚ) < 2 ^ (num.log2 + 1) := by exact_mod_cast Nat.lt_log2_self
  have hd1 : (2 : ℚ) ^ den.log2 ≤ den := by exact_mod_cast Nat.log2_self_le hd.ne'
  have hd2 : (den : ℚ) < 2 ^ (den.log2 + 1) := by exact_mod_cast Nat.lt_log2_self
  constructor
  · rw [lt_div_iff₀ hdq]
    calc (2 : ℚ) ^ ((num.log2 : ℤ) - den.log2 - 1) * den
        < 2 ^ ((num.log2 : ℤ) - den.log2 - 1) * 2 ^ (den.log2 + 1) := by gcongr
      _ = 2 ^ num.log2 := by
          rw [← zpow_natCast, ← zpow_natCast, ← zpow_add₀ two]
          congr 1
          push_cast
          ring
      _ ≤ num := hn1
  · rw [div_lt_iff₀ hdq]
    calc (num : ℚ) < 2 ^ (num.log2 + 1) := hn2
      _ = 2 ^ ((num.log2 : ℤ) - den.log2 + 1) * 2 ^ den.log2 := by
          rw [← zpow_natCast, ← zpow_natCast, ← zpow_add₀ two]
          congr 1
          push_cast
          ring
      _ ≤ 2 ^ ((num.log2 : ℤ) - den.log2 + 1) * den := by gcongr

theorem fills_max (f : Format) (hl : 2 ^ (e + f.precision - 1) ≤ q)
    (hu : q < 2 ^ (e + f.precision)) : f.Fills q (max e f.minExponent) := by
  refine ⟨le_max_right _ _, hu.trans_le ?_, ?_⟩
  · exact zpow_le_zpow_right₀ one_le_two (by omega)
  · rcases le_total e f.minExponent with he | he
    · exact Or.inl (max_eq_right he)
    · rw [max_eq_left he]
      exact Or.inr hl

theorem fills_exponentFor (f : Format) {num den : ℕ} (hn : 0 < num) (hd : 0 < den) :
    f.Fills (num / den) (f.exponentFor num den) := by
  obtain ⟨hlow, hhigh⟩ := log2_bounds hn hd
  unfold exponentFor
  generalize hg : (num.log2 : ℤ) - den.log2 - f.precision = g
  rw [show (num.log2 : ℤ) - den.log2 = g + f.precision by omega] at hlow hhigh
  obtain ⟨a, b, hr, hb, hab, ha⟩ := exists_ratio 1 g
  -- the guess is one too small exactly if the quotient does not fit into the mantissa
  have hfit : 1 <<< f.precision ≤ num * b / (den * a) ↔
      (2 : ℚ) ^ (g + f.precision) ≤ num / den := by
    have hdq : (0 : ℚ) < den := by exact_mod_cast hd
    have hbq : (0 : ℚ) < b := by exact_mod_cast hb
    have hg2 : (2 : ℚ) ^ g = a / b := by rw [hab, Nat.cast_one, one_mul]
    rw [Nat.le_div_iff_mul_le (Nat.mul_pos hd (ha one_pos)), Nat.one_shiftLeft,
      le_div_iff₀ hdq, zpow_add₀ two_ne_zero, zpow_natCast, hg2, div_mul_eq_mul_div,
      div_mul_eq_mul_div, div_le_iff₀ hbq, ← Nat.cast_le (α := ℚ)]
    push_cast
    rw [show (2 : ℚ) ^ f.precision * (den * a) = a * 2 ^ f.precision * den by ring]
  dsimp only
  rw [hr]
  dsimp only
  split
  · rename_i h
    refine f.fills_max ?_ ?_
    · rw [show g + 1 + f.precision - 1 = g + f.precision by ring]
      exact hfit.mp h
    · rw [show g + 1 + f.precision = g + f.precision + 1 by ring]
      exact hhigh
  · rename_i h
    exact f.fills_max hlow.le (not_le.mp (mt hfit.mpr h))

/-! ### Rounding -/

/-- A mantissa and an exponent, or infinity if the exponent is too large. -/
def fit (f : Format) (negative : Bool) (m : ℕ) (e : ℤ) : Binary :=
  if f.maxExponent < e then infinite negative else finite negative m e

/-- The nearest mantissa of a fraction at its exponent; one that is too long is halved. -/
theorem round_eq (f : Format) (s : Bool) {num den : ℕ} (hn : 0 < num) (hd : 0 < den) :
    ∃ m e, f.Fills (num / den) e ∧ Nearest (num / den / 2 ^ e) m ∧
      f.round s num den =
        if m = 2 ^ f.precision then f.fit s (2 ^ (f.precision - 1)) (e + 1) else f.fit s m e := by
  obtain ⟨a, b, hr, hb, hab, ha⟩ := exists_ratio 1 (f.exponentFor num den)
  refine ⟨roundDiv (num * b) (den * a), f.exponentFor num den, f.fills_exponentFor hn hd, ?_, ?_⟩
  · have hq : (num : ℚ) / den / 2 ^ f.exponentFor num den = (num * b : ℕ) / (den * a : ℕ) := by
      rw [show (2 : ℚ) ^ f.exponentFor num den = a / b by rw [hab, Nat.cast_one, one_mul]]
      push_cast
      rw [div_div_div_eq]
    rw [hq]
    exact nearest_roundDiv _ (Nat.mul_pos hd (ha one_pos))
  · unfold round fit
    rw [if_neg hn.ne', Nat.one_shiftLeft, Nat.one_shiftLeft]
    dsimp only
    rw [hr]
    dsimp only
    split <;> rfl

/-- The least number that is rounded to infinity. -/
def limit (f : Format) : ℚ := (2 ^ f.precision - 1 / 2) * 2 ^ f.maxExponent

/-- How a finite number is written: the mantissa is full unless the exponent is the least one. -/
structure Canonical (f : Format) (m : ℕ) (e : ℤ) : Prop where
  fits : m < 2 ^ f.precision
  least : f.minExponent ≤ e
  greatest : e ≤ f.maxExponent
  full : e = f.minExponent ∨ 2 ^ (f.precision - 1) ≤ m

variable {m : ℕ}

/-- The numbers of a format. -/
def Has (f : Format) : Binary → Prop
  | finite _ m e => f.Canonical m e
  | _ => True

theorem Has.of_isFinite {b : Binary} (h : f.Has b) (hb : b.isFinite = true) :
    ∃ s m e, b = finite s m e ∧ f.Canonical m e := by
  cases b with
  | finite s m e => exact ⟨s, m, e, rfl, h⟩
  | _ => cases hb

theorem lt_limit_of_lt (hf : f.Regular) (hq : q < 2 ^ (e + f.precision)) (he : e < f.maxExponent) :
    q < f.limit := by
  have hp : (2 : ℚ) ^ (f.precision - 1) * 2 = 2 ^ f.precision := by
    rw [← pow_succ, Nat.sub_add_cancel (by have := hf.precision; omega)]
  have h1 : (1 : ℚ) ≤ 2 ^ (f.precision - 1) := one_le_pow₀ one_le_two
  calc q < 2 ^ (e + f.precision) := hq
    _ ≤ 2 ^ (((f.precision - 1 : ℕ) : ℤ) + f.maxExponent) :=
        zpow_le_zpow_right₀ one_le_two (by have := hf.precision; omega)
    _ = 2 ^ (f.precision - 1) * 2 ^ f.maxExponent := by rw [zpow_add₀ two_ne_zero, zpow_natCast]
    _ ≤ f.limit := by
        unfold limit
        gcongr
        linarith

theorem limit_le_of_le (hq : 2 ^ (e + f.precision - 1) ≤ q) (he : f.maxExponent < e) :
    f.limit ≤ q := by
  calc f.limit ≤ 2 ^ f.precision * 2 ^ f.maxExponent := by
        unfold limit
        gcongr
        linarith
    _ = 2 ^ ((f.precision : ℤ) + f.maxExponent) := by rw [zpow_add₀ two_ne_zero, zpow_natCast]
    _ ≤ 2 ^ (e + f.precision - 1) := zpow_le_zpow_right₀ one_le_two (by omega)
    _ ≤ q := hq

theorem limit_pos (f : Format) : 0 < f.limit := by
  have h1 : (1 : ℚ) ≤ 2 ^ f.precision := one_le_pow₀ one_le_two
  unfold limit
  exact mul_pos (by linarith) (by positivity)

theorem Fills.mantissa_le (h : f.Fills q e) (hm : Nearest (q / 2 ^ e) m) : m ≤ 2 ^ f.precision := by
  refine hm.mono (nearest_natCast _) ?_
  rw [div_le_iff₀ (by positivity), Nat.cast_pow, Nat.cast_ofNat, ← zpow_natCast,
    ← zpow_add₀ two_ne_zero, add_comm]
  exact h.upper.le

theorem Fills.full (hf : f.Regular) (h : f.Fills q e) (hm : Nearest (q / 2 ^ e) m) :
    e = f.minExponent ∨ 2 ^ (f.precision - 1) ≤ m := by
  refine h.lower.imp_right fun hl => (nearest_natCast _).mono hm ?_
  rw [le_div_iff₀ (by positivity), Nat.cast_pow, Nat.cast_ofNat, ← zpow_natCast,
    ← zpow_add₀ two_ne_zero]
  rw [show ((f.precision - 1 : ℕ) : ℤ) + e = e + f.precision - 1 by have := hf.precision; omega]
  exact hl

/-- What rounding does: below the limit the result is finite and its value is the nearest one at
the exponent of the fraction; otherwise it is infinite. -/
theorem round_spec (hf : f.Regular) (s : Bool) (num : ℕ) {den : ℕ} (hd : 0 < den) :
    ((num : ℚ) / den < f.limit ∧ ∃ m e, f.Fills (num / den) e ∧ Nearest (num / den / 2 ^ e) m ∧
      ∃ m' e', f.round s num den = finite s m' e' ∧ f.Canonical m' e' ∧
        (m' : ℚ) * 2 ^ e' = m * 2 ^ e) ∨
      f.limit ≤ (num : ℚ) / den ∧ f.round s num den = infinite s := by
  rcases Nat.eq_zero_or_pos num with rfl | hn
  · left
    rw [Nat.cast_zero, zero_div]
    refine ⟨f.limit_pos, 0, f.minExponent, ⟨le_rfl, by positivity, Or.inl rfl⟩, ?_, 0,
      f.minExponent, rfl, ⟨by positivity, le_rfl, hf.range, Or.inl rfl⟩, rfl⟩
    rw [zero_div]
    exact nearest_natCast 0
  · obtain ⟨m, e, hfills, hm, hround⟩ := f.round_eq s hn hd
    rw [hround]
    unfold fit
    have hle := hfills.mantissa_le hm
    by_cases hcarry : m = 2 ^ f.precision
    · rw [if_pos hcarry]
      by_cases he : f.maxExponent < e + 1
      · right
        rw [if_pos he]
        refine ⟨?_, rfl⟩
        have hb := hm.below
        rw [hcarry, le_div_iff₀ (by positivity)] at hb
        push_cast at hb
        refine le_trans ?_ hb
        have h1 : (1 : ℚ) ≤ 2 ^ f.precision := one_le_pow₀ one_le_two
        unfold limit
        gcongr
        · linarith
        · exact one_le_two
        · omega
      · left
        rw [if_neg he]
        refine ⟨lt_limit_of_lt hf hfills.upper (by omega), m, e, hfills, hm, _, _, rfl, ?_, ?_⟩
        · have hp := hf.precision
          refine ⟨Nat.pow_lt_pow_right one_lt_two (by omega), ?_, by omega, Or.inr le_rfl⟩
          have := hfills.least
          omega
        · rw [hcarry, zpow_add_one₀ two_ne_zero]
          have hp : (2 : ℚ) ^ (f.precision - 1) * 2 = 2 ^ f.precision := by
            rw [← pow_succ, Nat.sub_add_cancel (by have := hf.precision; omega)]
          push_cast
          rw [← hp]
          ring
    · rw [if_neg hcarry]
      have hlt : m < 2 ^ f.precision := lt_of_le_of_ne hle hcarry
      by_cases he : f.maxExponent < e
      · right
        rw [if_pos he]
        refine ⟨limit_le_of_le (hfills.lower.resolve_left ?_) he, rfl⟩
        have := hf.range
        omega
      · left
        rw [if_neg he]
        refine ⟨?_, m, e, hfills, hm, m, e, rfl,
          ⟨hlt, hfills.least, by omega, hfills.full hf hm⟩, rfl⟩
        rcases lt_or_eq_of_le (not_lt.mp he) with he | rfl
        · exact lt_limit_of_lt hf hfills.upper he
        · -- the greatest mantissa is odd, so a tie above it is not rounded down
          have ha := hm.above
          have hlt' : (m : ℚ) + 1 ≤ 2 ^ f.precision := by exact_mod_cast hlt
          unfold limit
          rw [← div_lt_iff₀ (by positivity)]
          refine lt_of_le_of_ne (by linarith) fun heq => ?_
          have hm1 : (m : ℚ) + 1 = 2 ^ f.precision := by linarith
          have hm2 : m + 1 = 2 ^ f.precision := by exact_mod_cast hm1
          have heven := hm.even (Or.inr (by linarith))
          have hp : 2 ∣ 2 ^ f.precision := dvd_pow_self 2 (by have := hf.precision; omega)
          omega

variable {num num' den den' : ℕ}

/-- A fraction is rounded to a finite number if and only if it is below the limit. -/
theorem isFinite_round_iff (hf : f.Regular) (s : Bool) (num : ℕ) (hd : 0 < den) :
    (f.round s num den).isFinite = true ↔ (num : ℚ) / den < f.limit := by
  rcases f.round_spec hf s num hd with ⟨hq, _, _, _, _, _, _, he, _⟩ | ⟨hq, he⟩
  · rw [he]
    exact ⟨fun _ => hq, fun _ => rfl⟩
  · rw [he]
    exact ⟨(nomatch ·), fun h => absurd h (not_lt.mpr hq)⟩

/-- Rounding is monotone. -/
theorem round_mono (hf : f.Regular) (s s' : Bool) (hd : 0 < den) (hd' : 0 < den')
    (hq : (num : ℚ) / den ≤ num' / den') (hlt : (num' : ℚ) / den' < f.limit) :
    (f.round s num den).magnitude ≤ (f.round s' num' den').magnitude := by
  obtain ⟨-, m, e, hfills, hm, _, _, he, -, hv⟩ := (f.round_spec hf s num hd).resolve_right
    fun h => absurd (hq.trans_lt hlt) (not_lt.mpr h.1)
  obtain ⟨-, m', e', hfills', hm', _, _, he', -, hv'⟩ := (f.round_spec hf s' num' hd').resolve_right
    fun h => absurd hlt (not_lt.mpr h.1)
  rw [he, he', magnitude, magnitude, hv, hv']
  rcases eq_or_lt_of_le (hfills.mono hfills' hq) with rfl | hlt
  · have hle := hm.mono hm' (div_le_div_of_nonneg_right hq (by positivity))
    gcongr
  · -- the mantissa of the greater number is full
    have hmin : e' ≠ f.minExponent := by
      have := hfills.least
      omega
    have hfull : (2 : ℚ) ^ (f.precision - 1) ≤ m' := by
      exact_mod_cast (hfills'.full hf hm').resolve_left hmin
    have hle : (m : ℚ) ≤ 2 ^ f.precision := by exact_mod_cast hfills.mantissa_le hm
    calc (m : ℚ) * 2 ^ e ≤ 2 ^ f.precision * 2 ^ e := by gcongr
      _ = 2 ^ ((f.precision : ℤ) + e) := by rw [zpow_add₀ two_ne_zero, zpow_natCast]
      _ ≤ 2 ^ (((f.precision - 1 : ℕ) : ℤ) + e') :=
          zpow_le_zpow_right₀ one_le_two (by have := hf.precision; omega)
      _ = 2 ^ (f.precision - 1) * 2 ^ e' := by rw [zpow_add₀ two_ne_zero, zpow_natCast]
      _ ≤ m' * 2 ^ e' := by gcongr

/-- What a format can express is not changed. -/
theorem round_exact (hf : f.Regular) (s : Bool) (hd : 0 < den)
    (hq : (num : ℚ) / den = m * 2 ^ e) (hm : m < 2 ^ f.precision) (he : f.minExponent ≤ e)
    (hlt : (num : ℚ) / den < f.limit) : (f.round s num den).magnitude = num / den := by
  obtain ⟨-, n, e', hfills, hn, _, _, hround, -, hv⟩ := (f.round_spec hf s num hd).resolve_right
    fun h => absurd hlt (not_lt.mpr h.1)
  rw [hround, magnitude, hv]
  have hle : e' ≤ e := by
    rcases hfills.lower with hmin | hl
    · exact hmin ▸ he
    · have hm' : (m : ℚ) < 2 ^ (f.precision : ℤ) := by exact_mod_cast hm
      have h2 : (2 : ℚ) ^ (e' + f.precision - 1) < 2 ^ ((f.precision : ℤ) + e) := by
        rw [zpow_add₀ two_ne_zero]
        refine (hl.trans_eq hq).trans_lt ?_
        gcongr
      have h3 := (zpow_lt_zpow_iff_right₀ one_lt_two).mp h2
      omega
  -- the fraction is a whole number at its exponent
  obtain ⟨k, rfl⟩ : ∃ k : ℕ, e = e' + k := ⟨(e - e').toNat, by omega⟩
  have hwhole : (num : ℚ) / den / 2 ^ e' = ((m * 2 ^ k : ℕ) : ℚ) := by
    rw [hq, zpow_add₀ two_ne_zero, zpow_natCast]
    push_cast
    field_simp
  rw [hwhole] at hn
  rw [hn.unique (nearest_natCast _), ← hwhole, div_mul_cancel₀ _ (by positivity)]

/-! ### What is rounded to a number -/

/-- How far below a number what is rounded to it goes, in units of its last place: only half as far
if the numbers below are twice as dense. -/
def gap (f : Format) (m : ℕ) (e : ℤ) : ℚ :=
  if m = 2 ^ (f.precision - 1) ∧ f.minExponent < e then 1 / 4 else 1 / 2

/-- A number that is rounded to `m · 2 ^ e`; the ends of the interval belong to even mantissas. -/
structure Near (f : Format) (m : ℕ) (e : ℤ) (q : ℚ) : Prop where
  below : m - f.gap m e ≤ q / 2 ^ e
  above : q / 2 ^ e ≤ m + 1 / 2
  even : q / 2 ^ e = m - f.gap m e ∨ q / 2 ^ e = m + 1 / 2 → m % 2 = 0

theorem gap_le (f : Format) (m : ℕ) (e : ℤ) : 1 / 4 ≤ f.gap m e ∧ f.gap m e ≤ 1 / 2 := by
  unfold gap
  split
  · exact ⟨le_rfl, by norm_num⟩
  · exact ⟨by norm_num, le_rfl⟩

/-- At the exponent of the number itself, it is the nearest one. -/
theorem Near.nearest (h : f.Near m e q) : Nearest (q / 2 ^ e) m := by
  have hg := (f.gap_le m e).2
  have hb := h.below
  refine ⟨by linarith, h.above, ?_⟩
  rintro (he | he)
  · exact h.even (Or.inl (by linarith))
  · exact h.even (Or.inr he)

theorem Near.upper (hc : f.Canonical m e) (h : f.Near m e q) : q < 2 ^ (e + f.precision) := by
  have ha := h.above
  have hm : (m : ℚ) + 1 ≤ 2 ^ f.precision := by exact_mod_cast hc.fits
  rw [zpow_add₀ two_ne_zero, zpow_natCast, ← div_lt_iff₀' (by positivity)]
  linarith

/-- The exponent of a number may be too large by one for what is rounded to it.  Then it is the
least number of its exponent. -/
theorem Near.fills (hf : f.Regular) (hc : f.Canonical m e) (h : f.Near m e q) :
    f.Fills q e ∨
      m = 2 ^ (f.precision - 1) ∧ f.Fills q (e - 1) ∧
        Nearest (q / 2 ^ (e - 1)) (2 ^ f.precision) := by
  by_cases hlow : e = f.minExponent ∨ 2 ^ (e + f.precision - 1) ≤ q
  · exact Or.inl ⟨hc.least, h.upper hc, hlow⟩
  · obtain ⟨hmin, hq⟩ := not_or.mp hlow
    have hp := hf.precision
    have hpow : (2 : ℚ) ^ (f.precision - 1) * 2 = 2 ^ f.precision := by
      rw [← pow_succ, Nat.sub_add_cancel (by omega)]
    have hlt : q / 2 ^ e < 2 ^ (f.precision - 1) := by
      rw [div_lt_iff₀ (by positivity), ← zpow_natCast, ← zpow_add₀ two_ne_zero]
      rw [show ((f.precision - 1 : ℕ) : ℤ) + e = e + f.precision - 1 by omega]
      exact not_le.mp hq
    have hfull := hc.full.resolve_left hmin
    have hb := h.below
    obtain rfl : m = 2 ^ (f.precision - 1) := by
      refine le_antisymm (not_lt.mp fun hgt => ?_) hfull
      have hgt' : (2 : ℚ) ^ (f.precision - 1) + 1 ≤ m := by exact_mod_cast hgt
      have hg := (f.gap_le m e).2
      linarith
    have hlt' : f.minExponent < e := lt_of_le_of_ne hc.least (Ne.symm hmin)
    have hg : f.gap (2 ^ (f.precision - 1)) e = 1 / 4 := if_pos ⟨rfl, hlt'⟩
    rw [hg] at hb
    push_cast at hb
    have h1 : (1 : ℚ) ≤ 2 ^ (f.precision - 1) := one_le_pow₀ one_le_two
    have htwice : q / 2 ^ (e - 1) = 2 * (q / 2 ^ e) := by
      rw [zpow_sub_one₀ two_ne_zero]
      field_simp
    refine Or.inr ⟨rfl, ⟨by omega, ?_, Or.inr ?_⟩, ⟨?_, ?_, fun _ => ?_⟩⟩
    · rw [show e - 1 + f.precision = e + f.precision - 1 by ring]
      exact not_le.mp hq
    · have h2 : (2 : ℚ) ^ (e - 1 + f.precision - 1) = 2 ^ (f.precision - 1) / 2 * 2 ^ e := by
        rw [show e - 1 + f.precision - 1 = ((f.precision - 1 : ℕ) : ℤ) + e - 1 by omega,
          zpow_sub_one₀ two_ne_zero, zpow_add₀ two_ne_zero, zpow_natCast]
        ring
      rw [h2, ← le_div_iff₀ (by positivity)]
      linarith
    · rw [htwice]
      push_cast
      linarith
    · rw [htwice]
      push_cast
      linarith
    · exact Nat.mod_eq_zero_of_dvd (dvd_pow_self 2 (by omega))

/-- **Rounding.**  What is near a number of the format is rounded to it. -/
theorem round_of_near (hf : f.Regular) (s : Bool) (hc : f.Canonical m e) (hm : 0 < m)
    (hd : 0 < den) (h : f.Near m e (num / den)) : f.round s num den = finite s m e := by
  have hn : 0 < num := by
    rcases Nat.eq_zero_or_pos num with rfl | hn
    · have hb := h.below
      have hg := (f.gap_le m e).2
      have hm1 : (1 : ℚ) ≤ m := by exact_mod_cast hm
      rw [Nat.cast_zero, zero_div, zero_div] at hb
      linarith
    · exact hn
  obtain ⟨n, e', hfills, hnear, hround⟩ := f.round_eq s hn hd
  rw [hround]
  unfold fit
  rcases h.fills hf hc with hf' | ⟨rfl, hf', hn'⟩
  · obtain rfl := hfills.unique hf'
    obtain rfl := hnear.unique h.nearest
    rw [if_neg hc.fits.ne, if_neg (not_lt.mpr hc.greatest)]
  · obtain rfl := hfills.unique hf'
    obtain rfl := hnear.unique hn'
    rw [if_pos rfl, sub_add_cancel, if_neg (not_lt.mpr hc.greatest)]

/-! ### Products and quotients -/

variable {n : ℕ} {d : ℤ}

/-- A product is rounded once. -/
theorem mul_finite (f : Format) (s t : Bool) (m n : ℕ) (e d : ℤ) :
    ∃ a b : ℕ, 0 < b ∧ (a : ℚ) / b = (finite s m e).magnitude * (finite t n d).magnitude ∧
      f.mul (finite s m e) (finite t n d) = f.round (s != t) a b := by
  obtain ⟨a, b, hr, hb, hab, -⟩ := exists_ratio (m * n) (e + d)
  refine ⟨a, b, hb, ?_, by simp only [mul, hr]⟩
  rw [hab, zpow_add₀ two_ne_zero, magnitude, magnitude]
  push_cast
  ring

/-- A quotient is rounded once. -/
theorem div_finite (f : Format) (s t : Bool) (m : ℕ) (e d : ℤ) (hn : 0 < n) :
    ∃ a b : ℕ, 0 < b ∧ (a : ℚ) / b = (finite s m e).magnitude / (finite t n d).magnitude ∧
      f.div (finite s m e) (finite t n d) = f.round (s != t) a b := by
  obtain ⟨a, b, hr, hb, hab, -⟩ := exists_ratio 1 (e - d)
  refine ⟨m * a, n * b, Nat.mul_pos hn hb, ?_, by simp only [div, hr, if_neg hn.ne']⟩
  have hnq : (n : ℚ) ≠ 0 := by exact_mod_cast hn.ne'
  rw [zpow_sub₀ two_ne_zero] at hab
  rw [Nat.cast_mul, Nat.cast_mul, mul_div_mul_comm, hab, magnitude, magnitude]
  push_cast
  field_simp

end Format

end ReadThrough.Binary
