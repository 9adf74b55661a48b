import ReadThrough.Json.Reader
import ReadThrough.Proofs.Binary.Rounding

/-! # Scaling by powers of ten

A number that is read is a significand times a power of ten.  Both are rounded, and so is their
product or quotient.

* **Range** (`Json.Numeral.isSome_float?`).  Scaling down always gives a number; scaling up gives
  one as long as the exact value stays clear of the limit of the format.
* **Exactness** (`Json.Numeral.float?_exact`).  A significand below `2 ^ 53` and a power of ten up
  to `10 ^ 22` are exact, so what is rounded is the exact value. -/

namespace ReadThrough.Json.Numeral

open Binary

variable {n n' k k' : ℕ} {x : ℤ}

/-! ### Natural numbers -/

/-- The number of the format nearest to a natural number. -/
theorem ofInt_natCast (n : ℕ) : double.ofInt n = double.round false n 1 := by
  unfold Format.ofInt
  rw [decide_eq_false (by omega), Int.natAbs_natCast]

theorem isFinite_ofInt_iff (n : ℕ) :
    (double.ofInt n).isFinite = true ↔ (n : ℚ) < double.limit := by
  rw [ofInt_natCast, Format.isFinite_round_iff Format.double_regular false n Nat.one_pos,
    Nat.cast_one, div_one]

theorem exists_ofInt (hn : (double.ofInt n).isFinite = true) :
    ∃ m e, double.ofInt n = finite false m e := by
  have hlt := (isFinite_ofInt_iff n).mp hn
  rw [ofInt_natCast]
  rcases double.round_spec Format.double_regular false n Nat.one_pos with
    ⟨-, -, -, -, -, m, e, he, -⟩ | ⟨hle, -⟩
  · exact ⟨m, e, he⟩
  · rw [Nat.cast_one, div_one] at hle
    exact absurd hlt (not_lt.mpr hle)

theorem magnitude_ofInt_mono (h : n ≤ n') (hn : (double.ofInt n').isFinite = true) :
    (double.ofInt n).magnitude ≤ (double.ofInt n').magnitude := by
  have hlt := (isFinite_ofInt_iff n').mp hn
  rw [ofInt_natCast, ofInt_natCast]
  refine Format.round_mono Format.double_regular false false Nat.one_pos Nat.one_pos ?_ ?_
  · rw [Nat.cast_one, div_one, div_one]
    exact_mod_cast h
  · rwa [Nat.cast_one, div_one]

theorem isFinite_ofInt_mono (h : n ≤ n') (hn : (double.ofInt n').isFinite = true) :
    (double.ofInt n).isFinite = true := by
  have hle : (n : ℚ) ≤ n' := by exact_mod_cast h
  rw [isFinite_ofInt_iff] at hn ⊢
  exact hle.trans_lt hn

/-- A natural number that the format can express is not changed. -/
theorem magnitude_ofInt_exact {m e : ℕ} (hn : n = m * 2 ^ e) (hm : m < 2 ^ 53)
    (hfin : (double.ofInt n).isFinite = true) : (double.ofInt n).magnitude = n := by
  have hlt := (isFinite_ofInt_iff n).mp hfin
  rw [ofInt_natCast, double.round_exact Format.double_regular false Nat.one_pos (e := e) _ hm]
  · rw [Nat.cast_one, div_one]
  · exact (by decide : (-1074 : ℤ) ≤ 0).trans (Int.natCast_nonneg e)
  · rwa [Nat.cast_one, div_one]
  · rw [Nat.cast_one, div_one, hn]
    push_cast
    rfl

theorem powerOfTen_eq (k : ℕ) : powerOfTen k = double.ofInt ((10 ^ k : ℕ) : ℤ) :=
  (ofInt_natCast _).symm

/-! ### Scaling up -/

/-- Products of smaller numbers do not get too large. -/
theorem isFinite_mul_mono (hn : n ≤ n') (hk : k ≤ k') (hn' : (double.ofInt n').isFinite = true)
    (hk' : (double.ofInt k').isFinite = true)
    (h : (double.mul (double.ofInt n') (double.ofInt k')).isFinite = true) :
    (double.mul (double.ofInt n) (double.ofInt k)).isFinite = true := by
  have hmn := magnitude_ofInt_mono hn hn'
  have hmk := magnitude_ofInt_mono hk hk'
  obtain ⟨m, e, he⟩ := exists_ofInt (isFinite_ofInt_mono hn hn')
  obtain ⟨m', e', he'⟩ := exists_ofInt hn'
  obtain ⟨j, d, hd⟩ := exists_ofInt (isFinite_ofInt_mono hk hk')
  obtain ⟨j', d', hd'⟩ := exists_ofInt hk'
  rw [he', hd'] at h
  rw [he, he'] at hmn
  rw [hd, hd'] at hmk
  obtain ⟨a, b, hb, hab, hmul⟩ := double.mul_finite false false m j e d
  obtain ⟨a', b', hb', hab', hmul'⟩ := double.mul_finite false false m' j' e' d'
  rw [hmul', Format.isFinite_round_iff Format.double_regular _ _ hb', hab'] at h
  rw [he, hd, hmul, Format.isFinite_round_iff Format.double_regular _ _ hb, hab]
  refine lt_of_le_of_lt ?_ h
  have h0 : 0 ≤ (finite false j d).magnitude := by
    unfold magnitude
    positivity
  have h0' : 0 ≤ (finite false m' e').magnitude := by
    unfold magnitude
    positivity
  exact mul_le_mul hmn hmk h0 h0'

/-- What lies below the middle between the two largest numbers of the format. -/
def ceiling : ℕ := (2 ^ 54 - 3) * 2 ^ 970

/-- The products right below the ceiling. -/
theorem isFinite_mul_ceiling : ∀ j < 18,
    (double.ofInt (ceiling / 10 ^ (291 + j) : ℕ)).isFinite = true ∧
    (double.ofInt (10 ^ (291 + j) : ℕ)).isFinite = true ∧
    (double.mul (double.ofInt (ceiling / 10 ^ (291 + j) : ℕ))
      (double.ofInt (10 ^ (291 + j) : ℕ))).isFinite = true := by
  decide +kernel

/-- Seventeen digits times a power of ten, below the ceiling. -/
theorem isFinite_mul_powerOfTen (hn : n ≤ 10 ^ 17) (hk : k ≤ maxPower) (h : n * 10 ^ k ≤ ceiling) :
    (double.mul (double.ofInt n) (powerOfTen k)).isFinite = true := by
  have hmax : maxPower = 308 := rfl
  -- seventeen digits do not reach the ceiling with less than `10 ^ 291`
  obtain ⟨j, hj, hkj, hle⟩ : ∃ j < 18, k ≤ 291 + j ∧ n ≤ ceiling / 10 ^ (291 + j) := by
    rcases Nat.lt_or_ge k 291 with hlt | hge
    · exact ⟨0, by decide, hlt.le, hn.trans (by decide +kernel)⟩
    · obtain ⟨j, rfl⟩ := Nat.exists_eq_add_of_le hge
      exact ⟨j, by omega, le_rfl, (Nat.le_div_iff_mul_le (Nat.pow_pos (by decide))).mpr h⟩
  obtain ⟨h1, h2, h3⟩ := isFinite_mul_ceiling j hj
  rw [powerOfTen_eq]
  exact isFinite_mul_mono hle (Nat.pow_le_pow_right (by decide) hkj) h1 h2 h3

theorem scale_up (f : Binary) (fuel : ℕ) (hk : k ≤ maxPower)
    (h : (double.mul f (powerOfTen k)).isFinite = true) :
    scale f k (fuel + 1) = some (double.mul f (powerOfTen k)) := by
  unfold scale
  rw [Int.natAbs_natCast, if_pos hk, if_pos (Int.natCast_nonneg k)]
  dsimp only
  rw [if_pos h]

/-! ### Scaling down -/

theorem scale_down (f : Binary) (fuel : ℕ) (h0 : 0 < k) (hk : k ≤ maxPower) :
    scale f (-(k : ℤ)) (fuel + 1) = some (double.div f (powerOfTen k)) := by
  unfold scale
  rw [Int.natAbs_neg, Int.natAbs_natCast, if_pos hk, if_neg (by omega)]

/-- Scaling down ends within as many steps as there are largest powers in the exponent. -/
theorem isSome_scale_neg (f : Binary) {fuel : ℕ} (hx : x < 0)
    (hf : -((maxPower * fuel : ℕ) : ℤ) ≤ x) :
    (scale f x fuel).isSome = true := by
  induction fuel generalizing f x with
  | zero => omega
  | succ fuel ih =>
      have hmax : maxPower = 308 := rfl
      have hneg : ¬ 0 ≤ x := by omega
      unfold scale
      by_cases hle : x.natAbs ≤ maxPower
      · rw [if_pos hle, if_neg hneg]
        rfl
      · rw [if_neg hle, if_neg hneg]
        split
        · rfl
        · rw [hmax] at hf hle ih ⊢
          exact ih _ (by omega) (by omega)

/-! ### Numbers -/

/-- **Range.**  Seventeen digits below the ceiling are read as a number. -/
theorem isSome_float? (negative : Bool) (hn : n ≤ 10 ^ 17)
    (hlow : -((maxPower * 4 : ℕ) : ℤ) ≤ x) (hhigh : x ≤ maxPower)
    (h : 0 ≤ x → n * 10 ^ x.toNat ≤ ceiling) : (float? negative n x).isSome = true := by
  unfold float?
  rw [Option.isSome_map]
  rcases lt_or_ge x 0 with hx | hx
  · exact isSome_scale_neg _ hx hlow
  · obtain ⟨k, rfl⟩ := Int.eq_ofNat_of_zero_le hx
    have hk : k ≤ maxPower := by exact_mod_cast hhigh
    rw [scale_up _ 3 hk (isFinite_mul_powerOfTen hn hk (h hx))]
    rfl

/-- A significand of 53 bits and a small power of ten are exact. -/
theorem exact_parts (hn : n < 2 ^ 53) (hk : k ≤ 22) :
    (double.ofInt n).isFinite = true ∧ (double.ofInt n).magnitude = n ∧
      (powerOfTen k).isFinite = true ∧ (powerOfTen k).magnitude = 10 ^ k := by
  have hfin : (double.ofInt n).isFinite = true :=
    isFinite_ofInt_mono hn.le (by decide +kernel)
  have hten : (double.ofInt (10 ^ 22 : ℕ)).isFinite = true := by decide +kernel
  have hpow : (double.ofInt (10 ^ k : ℕ)).isFinite = true :=
    isFinite_ofInt_mono (Nat.pow_le_pow_right (by decide) hk) hten
  have hfive : 5 ^ k < 2 ^ 53 :=
    (Nat.pow_le_pow_right (by decide) hk).trans_lt (by decide : 5 ^ 22 < 2 ^ 53)
  refine ⟨hfin, magnitude_ofInt_exact (e := 0) (by rw [Nat.pow_zero, Nat.mul_one]) hn hfin, ?_, ?_⟩
  · rw [powerOfTen_eq]
    exact hpow
  · rw [powerOfTen_eq, magnitude_ofInt_exact (by rw [← Nat.mul_pow]) hfive hpow]
    push_cast
    rfl

/-- **Exactness.**  A significand of 53 bits and a small power of ten give the nearest number. -/
theorem float?_exact (negative : Bool) (hn : n < 2 ^ 53) (hx : x.natAbs ≤ 22) {m : ℕ} {e : ℤ}
    (hc : double.Canonical m e) (hm : 0 < m) (h : double.Near m e (n * 10 ^ x)) :
    float? negative n x = some (finite negative m e) := by
  obtain ⟨hfin, hmag, hfin', hmag'⟩ := exact_parts hn hx
  obtain ⟨a, d, ha⟩ := exists_ofInt hfin
  obtain ⟨b, c, hb⟩ : ∃ b c, powerOfTen x.natAbs = finite false b c := by
    rw [powerOfTen_eq] at hfin' ⊢
    exact exists_ofInt hfin'
  have hmax : maxPower = 308 := rfl
  have hscale : scale (double.ofInt n) x 4 = some (finite false m e) := by
    rw [ha] at hmag ⊢
    rw [hb] at hmag'
    rcases lt_or_ge x 0 with hneg | hpos
    · obtain ⟨k, rfl⟩ : ∃ k : ℕ, x = -(k : ℤ) := ⟨x.natAbs, by omega⟩
      rw [Int.natAbs_neg, Int.natAbs_natCast] at hb hmag'
      rw [scale_down _ 3 (by omega) (by omega), hb]
      have hb0 : 0 < b := by
        rcases Nat.eq_zero_or_pos b with rfl | hpos
        · have hz : (10 : ℚ) ^ k ≠ 0 := by positivity
          exact absurd (hmag'.symm.trans (by simp [magnitude])) hz
        · exact hpos
      obtain ⟨p, q, hq, hpq, hdiv⟩ := double.div_finite false false a d c hb0
      rw [hmag, hmag'] at hpq
      rw [zpow_neg, zpow_natCast, ← div_eq_mul_inv, ← hpq] at h
      rw [hdiv]
      exact congrArg some (double.round_of_near Format.double_regular _ hc hm hq h)
    · obtain ⟨k, rfl⟩ := Int.eq_ofNat_of_zero_le hpos
      rw [Int.natAbs_natCast] at hb hmag' hx
      obtain ⟨p, q, hq, hpq, hmul⟩ := double.mul_finite false false a b d c
      rw [hmag, hmag'] at hpq
      rw [zpow_natCast, ← hpq] at h
      have hround := double.round_of_near Format.double_regular (false != false) hc hm hq h
      rw [scale_up _ 3 (by omega) (by rw [hb, hmul, hround]; rfl), hb, hmul, hround]
      rfl
  unfold float?
  rw [hscale]
  cases negative <;> rfl

end ReadThrough.Json.Numeral
