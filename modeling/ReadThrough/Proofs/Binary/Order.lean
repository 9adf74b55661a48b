import Mathlib.Order.WithBot
import ReadThrough.Keys
import ReadThrough.Proofs.Binary.Rounding

/-! # The order of numbers

Finite numbers are ordered by their values, and the infinities stand at both ends
(`Binary.rank`).  Every integer up to `2 ^ 53`, of either sign, is a number of the 64-bit format
(`Binary.ofInt_exact`), so rounding leaves the order of such integers alone
(`Binary.rank_ofInt`). -/

namespace ReadThrough.Binary

/-- Where a number stands among the others; what is undefined stands at the upper end. -/
def rank : Binary → WithBot (WithTop ℚ)
  | nan => ⊤
  | infinite negative => if negative then ⊥ else ⊤
  | finite negative m e => ((if negative then -(m * 2 ^ e) else m * 2 ^ e : ℚ) : WithTop ℚ)

/-- An integer up to `2 ^ 53` is not changed. -/
theorem ofInt_exact {p : ℤ} (hp : p.natAbs ≤ Priority.maxExact) :
    ∃ m e, double.ofInt p = finite (decide (p < 0)) m e ∧ (m : ℚ) * 2 ^ e = p.natAbs := by
  have hmax : Priority.maxExact = 2 ^ 53 := rfl
  have hlt : ((p.natAbs : ℕ) : ℚ) / (1 : ℕ) < double.limit := by
    refine Format.lt_limit_of_lt Format.double_regular (e := 1) ?_ (by decide)
    have hle : ((p.natAbs : ℕ) : ℚ) ≤ 2 ^ 53 := by exact_mod_cast hmax ▸ hp
    rw [Nat.cast_one, div_one]
    exact hle.trans_lt (by norm_num [double])
  obtain ⟨-, -, -, -, -, m, e, hround, -, -⟩ :=
    (double.round_spec Format.double_regular (decide (p < 0)) p.natAbs Nat.one_pos).resolve_right
      fun h => absurd hlt (not_lt.mpr h.1)
  refine ⟨m, e, hround, ?_⟩
  -- the greatest of these integers is a power of two, so one bit is enough for it
  obtain ⟨j, d, hj, hjd⟩ : ∃ j d : ℕ, j < 2 ^ 53 ∧ p.natAbs = j * 2 ^ d := by
    rcases Nat.lt_or_eq_of_le (hmax ▸ hp) with hn | hn
    · exact ⟨p.natAbs, 0, hn, by rw [Nat.pow_zero, Nat.mul_one]⟩
    · exact ⟨1, 53, by decide, by rw [hn, Nat.one_mul]⟩
  have hq : ((p.natAbs : ℕ) : ℚ) / (1 : ℕ) = j * 2 ^ (d : ℤ) := by
    rw [Nat.cast_one, div_one, hjd, zpow_natCast]
    push_cast
    rfl
  have hleast : double.minExponent ≤ d :=
    (by decide : (-1074 : ℤ) ≤ 0).trans (Int.natCast_nonneg d)
  have hexact := double.round_exact Format.double_regular (decide (p < 0)) Nat.one_pos hq hj
    hleast hlt
  rwa [hround, magnitude, Nat.cast_one, div_one] at hexact

/-- An integer up to `2 ^ 53` stands where it stood before it was rounded. -/
theorem rank_ofInt {p : ℤ} (hp : p.natAbs ≤ Priority.maxExact) :
    (double.ofInt p).rank = ((p : ℚ) : WithTop ℚ) := by
  obtain ⟨m, e, he, hv⟩ := ofInt_exact hp
  rw [he, rank, hv]
  by_cases hn : p < 0
  · rw [decide_eq_true hn, if_pos rfl, Nat.cast_natAbs, abs_of_neg hn]
    push_cast
    rw [neg_neg]
  · rw [decide_eq_false hn, if_neg Bool.false_ne_true, Nat.cast_natAbs,
      abs_of_nonneg (not_lt.mp hn)]

end ReadThrough.Binary
