import Mathlib.Algebra.Ring.Int.Defs
import Mathlib.Algebra.Ring.Nat
import Mathlib.Data.List.Basic
import Mathlib.Tactic.ByContra
import ReadThrough.Text.Integer

/-! # Decimal digits

The digits of a number tell how large it is (`Text.length_toDigits_bounds`), and they do not start
with a zero, except for zero itself (`Text.head?_toDigits`).  The other way round, any digits stand
for a number of that length (`Text.ofDigitChars_bounds`).  A number that is within the limit is read
back from its decimal text (`Text.readNat_decimal`). -/

namespace ReadThrough.Text

/-- The number of digits of a number. -/
theorem length_toDigits_bounds {n : Nat} (hn : 0 < n) :
    10 ^ ((Nat.toDigits 10 n).length - 1) ≤ n ∧ n < 10 ^ (Nat.toDigits 10 n).length := by
  have hpos : 0 < (Nat.toDigits 10 n).length := Nat.length_toDigits_pos
  refine ⟨?_, (Nat.length_toDigits_le_iff (by decide) hpos).mp (Nat.le_refl _)⟩
  rcases Nat.eq_zero_or_pos ((Nat.toDigits 10 n).length - 1) with h0 | h1
  · rw [h0]
    exact hn
  · by_contra hlt
    have hle := (Nat.length_toDigits_le_iff (by decide) h1).mpr (Nat.not_le.mp hlt)
    omega

/-- The first digit of a positive number is not zero. -/
theorem head?_toDigits {n : Nat} (hn : 0 < n) : (Nat.toDigits 10 n).head? ≠ some '0' := by
  induction n using Nat.strongRecOn with
  | ind n ih =>
      rw [Nat.toDigits_eq_if (by decide)]
      split
      · rename_i hlt
        have small : ∀ k < 10, 0 < k → [k.digitChar].head? ≠ some '0' := by decide
        exact small n hlt hn
      · have hpos : 0 < n / 10 := Nat.div_pos (by omega) (by decide)
        rw [List.head?_append_of_ne_nil _ Nat.toDigits_ne_nil]
        exact ih (n / 10) (Nat.div_lt_self hn (by decide)) hpos

theorem isDigit_toDigits {n : Nat} {c : Char} (h : c ∈ Nat.toDigits 10 n) : c.isDigit = true :=
  Nat.isDigit_of_mem_toDigits (by decide) (by decide) h

theorem ofDigitChars_lt {cs : List Char} (h : ∀ c ∈ cs, c.isDigit = true) :
    Nat.ofDigitChars 10 cs 0 < 10 ^ cs.length := by
  induction cs with
  | nil => decide
  | cons c cs ih =>
      have hc := (Char.isDigit_iff_toNat.mp (h c List.mem_cons_self)).2
      have hd : c.toNat - '0'.toNat ≤ 9 := by
        have h9 : '9'.toNat = '0'.toNat + 9 := rfl
        omega
      have hlt := ih fun d hd => h d (List.mem_cons_of_mem _ hd)
      rw [Nat.ofDigitChars_cons, Nat.ofDigitChars_eq_ofDigitChars_zero, List.length_cons,
        Nat.pow_succ, Nat.mul_zero, Nat.zero_add]
      have := Nat.mul_le_mul_left (10 ^ cs.length) hd
      omega

/-- Digits whose first one is not zero tell how large their number is. -/
theorem ofDigitChars_bounds {cs : List Char} (h : ∀ c ∈ cs, c.isDigit = true) (hne : cs ≠ [])
    (h0 : cs.head? ≠ some '0') :
    10 ^ (cs.length - 1) ≤ Nat.ofDigitChars 10 cs 0 ∧ Nat.ofDigitChars 10 cs 0 < 10 ^ cs.length := by
  refine ⟨?_, ofDigitChars_lt h⟩
  obtain ⟨c, cs, rfl⟩ := List.exists_cons_of_ne_nil hne
  have hc := (Char.isDigit_iff_toNat.mp (h c List.mem_cons_self)).1
  have hpos : 1 ≤ c.toNat - '0'.toNat := by
    by_contra hlt
    refine h0 (congrArg some (Char.ext (UInt32.toNat_inj.mp ?_)))
    have hv : c.val.toNat = c.toNat := rfl
    have h0' : '0'.val.toNat = '0'.toNat := rfl
    omega
  rw [Nat.ofDigitChars_cons, Nat.ofDigitChars_eq_ofDigitChars_zero, List.length_cons,
    Nat.add_sub_cancel, Nat.mul_zero, Nat.zero_add]
  exact Nat.le_add_right_of_le (Nat.le_mul_of_pos_right _ hpos)

/-- More digits do not make a number less. -/
theorem le_ofDigitChars (n : Nat) (cs : List Char) : n ≤ Nat.ofDigitChars 10 cs n := by
  induction cs generalizing n with
  | nil => exact Nat.le_refl n
  | cons c cs ih =>
      rw [Nat.ofDigitChars_cons]
      refine Nat.le_trans ?_ (ih _)
      omega

theorem digitsUpTo_digits {limit : Nat} (beyond : IntegerProblem) {cs : List Char}
    (hc : ∀ c ∈ cs, c.isDigit = true) {n : Nat} (hn : Nat.ofDigitChars 10 cs n ≤ limit) :
    digitsUpTo limit beyond n cs = .ok (Nat.ofDigitChars 10 cs n) := by
  induction cs generalizing n with
  | nil => rfl
  | cons c cs ih =>
      have h0 : '0'.toNat = 48 := rfl
      rw [Nat.ofDigitChars_cons, h0, Nat.mul_comm] at hn ⊢
      -- the number does not exceed the limit on the way
      have hle : ¬ limit < n * 10 + (c.toNat - 48) :=
        Nat.not_lt.mpr (Nat.le_trans (le_ofDigitChars _ cs) hn)
      rw [digitsUpTo, if_pos (hc c List.mem_cons_self), if_neg hle]
      exact ih (fun d hd => hc d (List.mem_cons_of_mem _ hd)) hn

/-- A number is read back from its decimal text. -/
theorem readNat_decimal {limit n : Nat} (hn : n ≤ limit) : readNat limit (decimal n) = .ok n := by
  have hd : decimal n = Nat.toDigits 10 n := if_neg (Int.not_lt.mpr (Int.natCast_nonneg n))
  have hv : Nat.ofDigitChars 10 (Nat.toDigits 10 n) 0 = n :=
    Nat.ofDigitChars_toDigits (by decide) (by decide)
  have sign {cs : List Char} (he : Nat.toDigits 10 n = '+' :: cs) : False :=
    absurd (isDigit_toDigits (n := n) (he ▸ List.mem_cons_self)) (by decide)
  rw [hd]
  unfold readNat
  split
  · rename_i he
    exact absurd he Nat.toDigits_ne_nil
  · rename_i he
    exact (sign he).elim
  · rename_i he
    exact (sign he).elim
  · rw [digitsUpTo_digits _ (fun c hc => isDigit_toDigits hc) (hv.symm ▸ hn), hv]

end ReadThrough.Text
