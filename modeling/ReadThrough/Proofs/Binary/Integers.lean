import Mathlib.Data.List.TakeWhile
import Mathlib.Data.Rat.Floor
import ReadThrough.Binary.Decimal
import ReadThrough.Proofs.Binary.Order
import ReadThrough.Proofs.Text.Digits

/-! # Integers as numbers

An integer is written in decimal, read as a number of a format, and the number is cut back to an
integer within bounds.

* **Reading.**  The decimal text of an integer is read as the number nearest to the integer
  (`Binary.Format.ofText_decimal`).
* **Order.**  Of two integers the greater one is not rounded below the other one
  (`Binary.rank_ofInt_mono`), and of two numbers the greater one is not cut below the other one
  (`Binary.truncate_mono`).
* **Cutting back.**  A number that stands where an integer within the bounds stands is cut to that
  integer (`Binary.truncate_of_rank_intCast`), and one that is close to it to an integer as close to
  it (`Binary.abs_truncate_sub_le`).  What is rounded from less than 64 bits is close to where it
  was (`Binary.exists_rank_ofInt`). -/

namespace ReadThrough.Binary

/-! ### Reading -/

theorem toLower_of_isDigit {c : Char} (h : c.isDigit = true) : c.toLower = c := by
  obtain ⟨-, h9⟩ := Char.isDigit_iff_toNat.mp h
  unfold Char.toLower
  rw [dif_neg]
  rintro ⟨hA, -⟩
  have hA' : 'A'.toNat ≤ c.toNat := UInt32.le_iff_toNat_le.mp hA
  exact absurd (hA'.trans h9) (by decide)

/-- Digits and nothing else are the whole part of a number. -/
theorem Format.magnitude?_digits (f : Format) (negative : Bool) {cs : List Char}
    (hd : ∀ c ∈ cs, c.isDigit = true) (hne : cs ≠ []) :
    f.magnitude? negative cs = some (f.ofScaled negative (Nat.ofDigitChars 10 cs 0) 0) := by
  have htake : cs.takeWhile Char.isDigit = cs := List.takeWhile_eq_self_iff.mpr hd
  have hdrop : cs.dropWhile Char.isDigit = [] := List.dropWhile_eq_nil_iff.mpr hd
  have hlower : cs.map Char.toLower = cs :=
    (List.map_congr_left fun c hc => toLower_of_isDigit (hd c hc)).trans (List.map_id cs)
  -- the words for numbers do not start with a digit
  have word {c : Char} {w : List Char} (hc : c.isDigit = false) :
      String.ofList cs ≠ String.ofList (c :: w) := by
    intro he
    have hmem : c ∈ cs := String.ofList_injective he ▸ List.mem_cons_self
    exact Bool.false_ne_true (hc.symm.trans (hd c hmem))
  unfold magnitude?
  rw [hlower]
  dsimp only
  rw [if_neg (not_or.mpr ⟨word (c := 'i') rfl, word (c := 'i') rfl⟩),
    if_neg (word (c := 'n') rfl), htake, hdrop]
  dsimp only
  rw [if_neg fun h => hne (List.isEmpty_iff.mp h.1), List.append_nil]
  rfl

/-- The decimal text of an integer is read as the number nearest to it. -/
theorem Format.ofText_decimal (f : Format) {p : ℤ} (hp : (Nat.toDigits 10 p.natAbs).length ≤ 400) :
    f.ofText (Text.decimal p) = .ok (f.ofInt p) := by
  have hscaled (s : Bool) : f.ofScaled s p.natAbs 0 = f.round s p.natAbs 1 := by
    unfold ofScaled
    dsimp only
    by_cases h0 : p.natAbs = 0
    · rw [if_pos (Or.inl h0), h0]
      rfl
    · rw [if_neg (by omega), if_neg (by omega)]
      simp
  have hread (s : Bool) :
      f.magnitude? s (Nat.toDigits 10 p.natAbs) = some (f.round s p.natAbs 1) := by
    rw [f.magnitude?_digits s (fun c => Text.isDigit_toDigits) Nat.toDigits_ne_nil,
      Nat.ofDigitChars_toDigits (by decide) (by decide), hscaled]
  have sign {c : Char} {cs : List Char} (hc : c.isDigit = false) :
      Nat.toDigits 10 p.natAbs ≠ c :: cs := fun he =>
    Bool.false_ne_true (hc.symm.trans (Text.isDigit_toDigits (he ▸ List.mem_cons_self)))
  unfold ofText Text.decimal ofInt
  by_cases hn : p < 0
  · rw [if_pos hn, decide_eq_true hn]
    simp only [hread]
  · rw [if_neg hn, decide_eq_false hn]
    split
    · rename_i he
      exact (sign rfl he).elim
    · rename_i he
      exact (sign rfl he).elim
    · simp only [hread]

/-! ### Order -/

theorem rank_finite (s : Bool) (m : ℕ) (e : ℤ) :
    (finite s m e).rank =
      ((if s then -(finite s m e).magnitude else (finite s m e).magnitude : ℚ) : WithTop ℚ) := rfl

theorem magnitude_nonneg (b : Binary) : 0 ≤ b.magnitude := by
  cases b with
  | finite s m e =>
      rw [magnitude]
      positivity
  | _ => exact le_rfl

variable {f : Format} {num num' den den' : ℕ}

namespace Format

theorem round_ne_nan (hf : f.Regular) (s : Bool) (hd : 0 < den) : f.round s num den ≠ nan := by
  rcases f.round_spec hf s num hd with ⟨-, _, _, -, -, _, _, he, -⟩ | ⟨-, he⟩ <;> rw [he] <;> nofun

/-- What is rounded with a sign stands on the side of zero that the sign tells. -/
theorem rank_round_sign (hf : f.Regular) (num : ℕ) (hd : 0 < den) :
    (f.round true num den).rank ≤ ((0 : ℚ) : WithTop ℚ) ∧
      ((0 : ℚ) : WithTop ℚ) ≤ (f.round false num den).rank := by
  constructor
  · rcases f.round_spec hf true num hd with ⟨-, _, _, -, -, _, _, he, -⟩ | ⟨-, he⟩
    · rw [he, rank_finite, if_pos rfl]
      exact_mod_cast neg_nonpos.mpr (magnitude_nonneg _)
    · rw [he]
      exact bot_le
  · rcases f.round_spec hf false num hd with ⟨-, _, _, -, -, _, _, he, -⟩ | ⟨-, he⟩
    · rw [he, rank_finite, if_neg Bool.false_ne_true]
      exact_mod_cast magnitude_nonneg _
    · rw [he]
      exact le_top

/-- Rounding keeps the order of fractions with the same sign. -/
theorem rank_round_mono (hf : f.Regular) (hd : 0 < den) (hd' : 0 < den')
    (hq : (num : ℚ) / den ≤ num' / den') :
    (f.round true num' den').rank ≤ (f.round true num den).rank ∧
      (f.round false num den).rank ≤ (f.round false num' den').rank := by
  constructor
  · rcases f.round_spec hf true num' hd' with ⟨hlt, _, _, -, -, m', e', he', -⟩ | ⟨-, he'⟩
    · have hle := f.round_mono hf true true hd hd' hq hlt
      obtain ⟨-, _, _, -, -, m, e, he, -⟩ := (f.round_spec hf true num hd).resolve_right
        fun h => absurd (hq.trans_lt hlt) (not_lt.mpr h.1)
      rw [he, he'] at hle ⊢
      rw [rank_finite, rank_finite, if_pos rfl, if_pos rfl]
      exact_mod_cast neg_le_neg hle
    · rw [he']
      exact bot_le
  · rcases f.round_spec hf false num' hd' with ⟨hlt, _, _, -, -, m', e', he', -⟩ | ⟨-, he'⟩
    · have hle := f.round_mono hf false false hd hd' hq hlt
      obtain ⟨-, _, _, -, -, m, e, he, -⟩ := (f.round_spec hf false num hd).resolve_right
        fun h => absurd (hq.trans_lt hlt) (not_lt.mpr h.1)
      rw [he, he'] at hle ⊢
      rw [rank_finite, rank_finite, if_neg Bool.false_ne_true, if_neg Bool.false_ne_true]
      exact_mod_cast hle
    · rw [he']
      exact le_top

end Format

/-- Of two integers the greater one is not rounded below the other one. -/
theorem rank_ofInt_mono (hf : f.Regular) {p q : ℤ} (h : p ≤ q) :
    (f.ofInt p).rank ≤ (f.ofInt q).rank := by
  have whole {m n : ℕ} (h : m ≤ n) : (m : ℚ) / (1 : ℕ) ≤ n / (1 : ℕ) := by
    rw [Nat.cast_one, div_one, div_one]
    exact_mod_cast h
  unfold Format.ofInt
  by_cases hp : p < 0 <;> by_cases hq : q < 0
  · rw [decide_eq_true hp, decide_eq_true hq]
    exact (f.rank_round_mono hf one_pos one_pos (whole (by omega))).1
  · rw [decide_eq_true hp, decide_eq_false hq]
    exact (f.rank_round_sign hf _ one_pos).1.trans (f.rank_round_sign hf _ one_pos).2
  · omega
  · rw [decide_eq_false hp, decide_eq_false hq]
    exact (f.rank_round_mono hf one_pos one_pos (whole (by omega))).2

/-! ### Cutting back -/

/-- The integer next to a value on the side of zero. -/
def towardZero (x : ℚ) : ℤ := if 0 ≤ x then ⌊x⌋ else ⌈x⌉

theorem towardZero_intCast (p : ℤ) : towardZero p = p := by
  unfold towardZero
  split_ifs
  · exact Int.floor_intCast p
  · exact Int.ceil_intCast p

theorem towardZero_mono {x y : ℚ} (h : x ≤ y) : towardZero x ≤ towardZero y := by
  unfold towardZero
  split_ifs with hx hy hy
  · exact Int.floor_mono h
  · exact absurd (hx.trans h) hy
  · exact (Int.ceil_nonpos.mpr (not_le.mp hx).le).trans (Int.floor_nonneg.mpr hy)
  · exact Int.ceil_mono h

/-- Cutting a value to an integer does not move it past an integer. -/
theorem abs_towardZero_sub_le {x : ℚ} {p d : ℤ} (h : |x - p| ≤ d) : |towardZero x - p| ≤ d := by
  obtain ⟨hl, hu⟩ := abs_le.mp h
  have hlow : ((p - d : ℤ) : ℚ) ≤ x := by
    push_cast
    linarith
  have hupp : x ≤ ((p + d : ℤ) : ℚ) := by
    push_cast
    linarith
  have h1 := towardZero_mono hlow
  have h2 := towardZero_mono hupp
  rw [towardZero_intCast] at h1 h2
  exact abs_le.mpr ⟨by omega, by omega⟩

variable {b : Binary} {lo hi : ℤ}

/-- A finite number is cut towards zero and kept within the bounds. -/
theorem truncate_of_rank {x : ℚ} (h : b.rank = (x : WithTop ℚ)) :
    b.truncate lo hi = max lo (min hi (towardZero x)) := by
  cases b with
  | nan => nomatch WithBot.coe_injective h
  | infinite s => cases s with
    | false => nomatch WithBot.coe_injective h
    | true => nomatch h
  | finite s m e =>
      obtain ⟨a, c, hr, -, hac, -⟩ := exists_ratio m e
      have hfloor : ((a / c : ℕ) : ℤ) = ⌊(m : ℚ) * 2 ^ e⌋ := by
        rw [← hac, Rat.floor_natCast_div_natCast, Int.natCast_div]
      have hpos : (0 : ℚ) ≤ m * 2 ^ e := by positivity
      have hx : (if s then -((m : ℚ) * 2 ^ e) else m * 2 ^ e) = x :=
        WithTop.coe_injective (WithBot.coe_injective h)
      simp only [truncate, hr]
      rw [hfloor, ← hx]
      congr 2
      cases s with
      | false => exact (if_pos hpos).symm
      | true =>
          unfold towardZero
          rw [if_pos rfl, if_pos rfl]
          split_ifs with h0
          · have hz : (m : ℚ) * 2 ^ e = 0 := by linarith
            rw [hz]
            rfl
          · rw [Int.ceil_neg]

theorem truncate_mem (hb : b ≠ nan) (hlo : lo ≤ hi) :
    lo ≤ b.truncate lo hi ∧ b.truncate lo hi ≤ hi := by
  cases b with
  | nan => exact absurd rfl hb
  | infinite s => cases s with
    | true => exact ⟨le_rfl, hlo⟩
    | false => exact ⟨hlo, le_rfl⟩
  | finite s m e =>
      rw [truncate_of_rank (rank_finite s m e)]
      exact ⟨le_max_left _ _, max_le hlo (min_le_left _ _)⟩

/-- Of two numbers the greater one is not cut below the other one. -/
theorem truncate_mono {a b : Binary} (ha : a ≠ nan) (hb : b ≠ nan) (hlo : lo ≤ hi)
    (h : a.rank ≤ b.rank) : a.truncate lo hi ≤ b.truncate lo hi := by
  match a, b with
  | nan, _ => exact absurd rfl ha
  | _, nan => exact absurd rfl hb
  | infinite true, b => exact (truncate_mem hb hlo).1
  | a, infinite false => exact (truncate_mem ha hlo).2
  | infinite false, infinite true => exact absurd (le_bot_iff.mp h) nofun
  | finite .., infinite true => exact absurd (le_bot_iff.mp h) nofun
  | infinite false, finite .. =>
      exact absurd (top_le_iff.mp (WithBot.coe_le_coe.mp h)) nofun
  | finite s m e, finite s' m' e' =>
      rw [truncate_of_rank (rank_finite s m e), truncate_of_rank (rank_finite s' m' e')]
      have hx := towardZero_mono (WithTop.coe_le_coe.mp (WithBot.coe_le_coe.mp h))
      exact max_le_max le_rfl (min_le_min le_rfl hx)

/-- A number close to an integer within the bounds is cut to an integer as close to it. -/
theorem abs_truncate_sub_le {x : ℚ} {p d : ℤ} (h : b.rank = (x : WithTop ℚ)) (hd : |x - p| ≤ d)
    (hlo : lo ≤ p) (hhi : p ≤ hi) : |b.truncate lo hi - p| ≤ d := by
  rw [truncate_of_rank h]
  have hle := abs_le.mp (abs_towardZero_sub_le hd)
  exact abs_le.mpr ⟨by omega, by omega⟩

/-- A number that stands where an integer within the bounds stands is cut to it. -/
theorem truncate_of_rank_intCast {p : ℤ} (h : b.rank = ((p : ℚ) : WithTop ℚ)) (hlo : lo ≤ p)
    (hhi : p ≤ hi) : b.truncate lo hi = p := by
  rw [truncate_of_rank h, towardZero_intCast, min_eq_right hhi, max_eq_right hlo]

/-! ### Words of 64 bits -/

/-- An integer of less than 64 bits is moved by at most half a unit in the last place that the
greatest of them have. -/
theorem exists_rank_ofInt {p : ℤ} (hp : p.natAbs < 2 ^ 63) :
    ∃ x : ℚ, (double.ofInt p).rank = (x : WithTop ℚ) ∧ |x - p| ≤ 512 := by
  have hnum : ((p.natAbs : ℕ) : ℚ) / (1 : ℕ) = p.natAbs := by rw [Nat.cast_one, div_one]
  have hlt : ((p.natAbs : ℕ) : ℚ) / (1 : ℕ) < 2 ^ (63 : ℤ) := by
    rw [hnum]
    exact_mod_cast hp
  have hlimit := Format.lt_limit_of_lt Format.double_regular (e := 10) hlt (by decide)
  obtain ⟨-, m, e, hfills, hm, m', e', he, -, hv⟩ :=
    (double.round_spec Format.double_regular (decide (p < 0)) p.natAbs Nat.one_pos).resolve_right
      fun h => absurd hlimit (not_lt.mpr h.1)
  have hexp : e ≤ 10 := by
    rcases hfills.lower with h | h
    · rw [h]
      decide
    · have := (zpow_lt_zpow_iff_right₀ one_lt_two).mp (h.trans_lt hlt)
      have hprec : (double.precision : ℤ) = 53 := rfl
      omega
  have hunit : (2 : ℚ) ^ e ≤ 2 ^ (10 : ℤ) := zpow_le_zpow_right₀ one_le_two hexp
  have hpos : (0 : ℚ) < 2 ^ e := by positivity
  have hclose : |(m' : ℚ) * 2 ^ e' - p.natAbs| ≤ 512 := by
    have hb := hm.below
    have ha := hm.above
    rw [hnum, le_div_iff₀ hpos] at hb
    rw [hnum, div_le_iff₀ hpos] at ha
    norm_num at hunit
    rw [hv]
    exact abs_le.mpr ⟨by linarith, by linarith⟩
  refine ⟨if p < 0 then -(m' * 2 ^ e') else m' * 2 ^ e', ?_, ?_⟩
  · rw [Format.ofInt, he, rank]
    simp only [decide_eq_true_eq]
  · split_ifs with hn
    · rw [Nat.cast_natAbs, abs_of_neg hn] at hclose
      push_cast at hclose
      rwa [abs_sub_comm, sub_neg_eq_add, add_comm, ← sub_neg_eq_add]
    · rwa [Nat.cast_natAbs, abs_of_nonneg (not_lt.mp hn)] at hclose

end ReadThrough.Binary
