import ReadThrough.Proofs.Text.Digits
import ReadThrough.Settings.Toml

/-! # Values of TOML

What is read where a value was written.

* **Spelling** (`Toml.Spells`).  Inside a basic string a character stands for itself, or a backslash
  and a letter stand for it, or its number in base sixteen does, with four digits or with eight.
* **Strings** (`Toml.basicBody_body`).  Whatever spelling is chosen for each character, the text is
  read back.
* **Integers** (`Toml.integer_digits`) that fit into 64 bits are read back from their digits.
* **Values** (`Toml.value_written`).  So is a value of either kind, as long as it ends where it is
  over (`Toml.Over`).  Every text and every number can be written (`Toml.exists_written`). -/

namespace ReadThrough.Toml

/-! ### What stands for a value -/

/-- Letters that stand, behind a backslash, for another character. -/
def letters : List (Char × Char) :=
  [('b', '\x08'), ('t', '\t'), ('n', '\n'), ('f', '\x0c'), ('r', '\r'), ('"', '"'), ('\\', '\\')]

/-- Digits of base sixteen, in letters of either case and with any zeros in front. -/
def Hex (n : Nat) (ds : List Char) : Prop :=
  ∃ zeros, ds.map Char.toLower = List.replicate zeros '0' ++ Nat.toDigits 16 n

/-- The ways to write a character inside a basic string. -/
inductive Spells (c : Char) : List Char → Prop
  | plain (hc : isPlain c = true) (hq : c ≠ '"') (hb : c ≠ '\\') : Spells c [c]
  | letter {e : Char} (he : (e, c) ∈ letters) : Spells c ['\\', e]
  | short {ds : List Char} (hl : ds.length = 4) (hd : Hex c.toNat ds) : Spells c ('\\' :: 'u' :: ds)
  | long {ds : List Char} (hl : ds.length = 8) (hd : Hex c.toNat ds) : Spells c ('\\' :: 'U' :: ds)

/-- The ways to write characters one after the other. -/
inductive Body : List Char → List Char → Prop
  | nil : Body [] []
  | cons {c : Char} {s cs body : List Char} (hc : Spells c cs) (hs : Body s body) :
      Body (c :: s) (cs ++ body)

/-- A text as a basic string, or a number by its decimal digits. -/
inductive Written : Value → List Char → Prop
  | text {name : String} {body : List Char} (hb : Body name.toList body) :
      Written (.text name) ('"' :: (body ++ ['"']))
  | int (n : Nat) : Written (.int n) (Nat.toDigits 10 n)

/-! ### Escapes -/

/-- A number with one more digit of base sixteen. -/
def hexStep (n? : Option Nat) (d : Char) : Option Nat := do
  let n ← n?
  if d.isDigit then some (n * 16 + (d.toNat - 48))
  else if 'a' ≤ d ∧ d ≤ 'f' then some (n * 16 + (d.toNat - 87))
  else if 'A' ≤ d ∧ d ≤ 'F' then some (n * 16 + (d.toNat - 55))
  else none

theorem hexChar?_eq (ds : List Char) :
    hexChar? ds = (ds.foldl hexStep (some 0)).bind fun n =>
      if n.isValidChar then some (Char.ofNat n) else none := rfl

/-- A digit means the same behind any number. -/
theorem hexStep_some (n : Nat) (d : Char) :
    hexStep (some n) d = (hexStep (some 0) d).map (n * 16 + ·) := by
  simp only [hexStep, Option.bind_eq_bind, Option.bind_some]
  split
  · simp
  · split
    · simp
    · split
      · simp
      · rfl

/-- The digit of `k`, in either case, has the value `k`. -/
theorem hexStep_eq (n : Nat) {d : Char} {k : Nat} (hk : k < 16) (hd : d.toLower = k.digitChar) :
    hexStep (some n) d = some (n * 16 + k) := by
  -- only ASCII has such lower-case letters, and there they can be tried one by one
  have small : ∀ k < 16, ∀ m < 128, (Char.ofNat m).toLower = k.digitChar →
      hexStep (some 0) (Char.ofNat m) = some k := by
    decide +kernel
  have ascii : ∀ k < 16, k.digitChar.toNat < 128 := by decide
  have hlt : d.toNat < 128 := by
    unfold Char.toLower at hd
    split at hd
    · rename_i h
      have hz : d.toNat ≤ 'Z'.toNat := UInt32.le_iff_toNat_le.mp h.2
      exact Nat.lt_of_le_of_lt hz (by decide)
    · exact hd ▸ ascii k hk
  have hs := small k hk d.toNat hlt
  rw [Char.ofNat_toNat] at hs
  rw [hexStep_some, hs hd, Option.map_some]

/-- Digits of a number, in either case, are read as the number. -/
theorem foldl_hexStep {n : Nat} {ds : List Char} (h : ds.map Char.toLower = Nat.toDigits 16 n) :
    ds.foldl hexStep (some 0) = some n := by
  induction n using Nat.strongRecOn generalizing ds with
  | ind n ih =>
      rw [Nat.toDigits_eq_if (by decide)] at h
      split at h
      · rename_i hlt
        obtain ⟨d, rfl, hd⟩ := List.map_eq_singleton_iff.mp h
        simpa using hexStep_eq 0 hlt hd
      · rename_i hlt
        obtain ⟨es, ls, rfl, he, hl⟩ := List.map_eq_append_iff.mp h
        obtain ⟨d, rfl, hd⟩ := List.map_eq_singleton_iff.mp hl
        have hdiv : n / 16 < n := Nat.div_lt_self (by omega) (by decide)
        rw [List.foldl_append, ih _ hdiv he, List.foldl_cons, List.foldl_nil,
          hexStep_eq _ (Nat.mod_lt n (by decide)) hd, Nat.div_add_mod']

/-- Zeros in front do not change a number. -/
theorem foldl_hexStep_zeros {zs : List Char} (h : ∀ z ∈ zs, z.toLower = '0') :
    zs.foldl hexStep (some 0) = some 0 := by
  induction zs with
  | nil => rfl
  | cons z zs ih =>
      rw [List.foldl_cons, hexStep_eq 0 (k := 0) (by decide) (h z List.mem_cons_self)]
      exact ih fun y hy => h y (List.mem_cons_of_mem _ hy)

/-- A character is known by its number. -/
theorem hexChar?_of_hex {c : Char} {ds : List Char} (h : Hex c.toNat ds) :
    hexChar? ds = some c := by
  obtain ⟨zeros, hz⟩ := h
  obtain ⟨zs, es, rfl, h0, he⟩ := List.map_eq_append_iff.mp hz
  have hzs : ∀ z ∈ zs, z.toLower = '0' := fun z hm =>
    List.eq_of_mem_replicate (h0 ▸ List.mem_map_of_mem hm)
  rw [hexChar?_eq, List.foldl_append, foldl_hexStep_zeros hzs, foldl_hexStep he, Option.bind_some,
    Char.ofNat_toNat]
  exact if_pos c.valid

/-- A character that is written in a basic string is read off it. -/
theorem basicBody_spelled {c : Char} {cs : List Char} (h : Spells c cs) (rest : List Char) :
    basicBody (cs ++ rest) = before c (basicBody rest) := by
  cases h with
  | plain hc hq hb =>
      rw [List.singleton_append, basicBody]
      · rw [if_pos ⟨hc, hb⟩]
      · exact hq
      · intro a b c d rest' he
        exact absurd he hb
      · intro a b c d e f g h rest' he
        exact absurd he hb
      · intro e rest' he
        exact absurd he hb
  | letter he =>
      simp only [letters, List.mem_cons, Prod.mk.injEq, List.not_mem_nil, or_false] at he
      rcases he with ⟨rfl, rfl⟩ | ⟨rfl, rfl⟩ | ⟨rfl, rfl⟩ | ⟨rfl, rfl⟩ | ⟨rfl, rfl⟩ | ⟨rfl, rfl⟩ |
        ⟨rfl, rfl⟩ <;> rfl
  | short hl hd =>
      have hx := hexChar?_of_hex hd
      obtain ⟨d₁, d₂, d₃, d₄, rfl⟩ := List.length_eq_four.mp hl
      simp only [List.cons_append, List.nil_append]
      rw [basicBody, hx]
  | @long ds hl hd =>
      have hx := hexChar?_of_hex hd
      match ds, hl with
      | [d₁, d₂, d₃, d₄, d₅, d₆, d₇, d₈], _ =>
          simp only [List.cons_append, List.nil_append]
          rw [basicBody, hx]

/-- Whatever stands for its characters, a text is read up to the closing quote. -/
theorem basicBody_body {s body : List Char} (h : Body s body) (rest : List Char) :
    basicBody (body ++ '"' :: rest) = some (s, rest) := by
  induction h with
  | nil => rfl
  | cons hc hs ih =>
      rw [List.append_assoc, basicBody_spelled hc, ih]
      rfl

/-! ### Values -/

/-- A value can end before this: before space, a comment, the end of the line or of the text. -/
def Over (rest : List Char) : Prop := ∀ c ∈ rest.head?, c ∈ [' ', '\t', '#', '\n', '\r']

/-- A basic string is not taken for one of several lines, not even the empty one. -/
theorem string_body {name : String} {body rest : List Char} (h : Body name.toList body)
    (hr : Over rest) : string ('"' :: (body ++ '"' :: rest)) = some (name, rest) := by
  have hb := basicBody_body h rest
  have hf : ∀ x y zs, body ++ '"' :: rest = x :: y :: zs → ¬ (x = '"' ∧ y = '"') := by
    rintro x y zs he ⟨rfl, rfl⟩
    generalize hn : name.toList = s at h
    cases h with
    | nil =>
        obtain ⟨-, rfl⟩ := List.cons.inj he
        simpa using hr '"' rfl
    | cons hc hs =>
        cases hc with
        | plain hc hq hb => exact hq (List.cons.inj he).1
        | letter he' => exact absurd (List.cons.inj he).1 (by decide)
        | short hl hd => exact absurd (List.cons.inj he).1 (by decide)
        | long hl hd => exact absurd (List.cons.inj he).1 (by decide)
  unfold string
  split
  · rename_i zs he
    exact absurd ⟨rfl, rfl⟩ (hf _ _ zs (List.cons.inj he).2)
  · rename_i he
    exact absurd (List.cons.inj he).1 (by decide)
  · rename_i zs _ he
    rw [← (List.cons.inj he).2, hb]
    simp
  · rename_i he
    exact absurd (List.cons.inj he).1 (by decide)
  · rename_i hq _
    exact absurd rfl (hq _)

theorem digit?_over {c : Char} (h : c ∈ [' ', '\t', '#', '\n', '\r']) :
    digit? 10 c = none ∧ c ≠ '_' := by
  simp only [List.mem_cons, List.not_mem_nil, or_false] at h
  rcases h with rfl | rfl | rfl | rfl | rfl <;> exact ⟨rfl, by decide⟩

theorem digit?_isDigit {c : Char} (h : c.isDigit = true) :
    digit? 10 c = some (c.toNat - 48) ∧ c ≠ '_' := by
  obtain ⟨h1, h2⟩ := Char.isDigit_iff_toNat.mp h
  have h9 : '9'.toNat = 57 := rfl
  have hlt : c.toNat - 48 < 10 := by omega
  refine ⟨by simp [digit?, h, Option.filter_some, hlt], ?_⟩
  rintro rfl
  exact absurd h (by decide)

/-- Digits are read up to the end of the value. -/
theorem moreDigits_append {cs rest : List Char} (hc : ∀ c ∈ cs, c.isDigit = true) (hr : Over rest)
    (n : Nat) : moreDigits 10 n (cs ++ rest) = (Nat.ofDigitChars 10 cs n, rest) := by
  induction cs generalizing n with
  | nil =>
      cases rest with
      | nil => rfl
      | cons c rest =>
          obtain ⟨hd, hu⟩ := digit?_over (hr c rfl)
          rw [List.nil_append, moreDigits]
          · rw [hd]
            rfl
          · intro d ds he
            exact absurd he hu
  | cons c cs ih =>
      obtain ⟨hd, hu⟩ := digit?_isDigit (hc c List.mem_cons_self)
      rw [List.cons_append, moreDigits]
      · rw [hd]
        dsimp only
        rw [ih fun d hd => hc d (List.mem_cons_of_mem _ hd), Nat.ofDigitChars_cons, Nat.mul_comm]
        rfl
      · intro d ds he
        exact absurd he hu

/-- Decimal digits start with a digit, and with a zero only if the number is zero. -/
theorem of_digits_cons {n : Nat} {rest zs : List Char} {x : Char}
    (h : Nat.toDigits 10 n ++ rest = x :: zs) :
    x.isDigit = true ∧ (x = '0' → n = 0 ∧ zs = rest) := by
  obtain ⟨c, ds, hc⟩ := List.exists_cons_of_ne_nil (Nat.toDigits_ne_nil (b := 10) (n := n))
  rw [hc] at h
  obtain ⟨rfl, rfl⟩ := List.cons.inj h
  refine ⟨Text.isDigit_toDigits (n := n) (hc ▸ List.mem_cons_self), ?_⟩
  rintro rfl
  rcases Nat.eq_zero_or_pos n with rfl | hpos
  · obtain ⟨-, rfl⟩ := List.cons.inj (hc.symm.trans (show _ = ['0'] from rfl))
    exact ⟨rfl, rfl⟩
  · exact absurd (by rw [hc]; rfl) (Text.head?_toDigits hpos)

theorem decimal_digits {n : Nat} {rest : List Char} (hr : Over rest) :
    decimal (Nat.toDigits 10 n ++ rest) = some (n, rest) := by
  unfold decimal
  split
  · rename_i zs he
    obtain ⟨hn, hz⟩ := (of_digits_cons he).2 rfl
    rw [hn, hz]
  · obtain ⟨c, ds, hc⟩ := List.exists_cons_of_ne_nil (Nat.toDigits_ne_nil (b := 10) (n := n))
    have hm : ∀ d ∈ c :: ds, d.isDigit = true := fun d hd => Text.isDigit_toDigits (hc ▸ hd)
    have hv := Nat.ofDigitChars_toDigits (b := 10) (n := n) (by decide) (by decide)
    rw [hc, Nat.ofDigitChars_cons, Nat.mul_zero, Nat.zero_add] at hv
    rw [hc, List.cons_append, digits, (digit?_isDigit (hm c List.mem_cons_self)).1,
      Option.map_some, moreDigits_append (fun d hd => hm d (List.mem_cons_of_mem _ hd)) hr]
    exact congrArg (fun m => some (m, rest)) hv

/-- A number is read back from its digits, which have no base and no sign in front. -/
theorem integer_digits {n : Nat} {rest : List Char} (hn : (n : Int) ≤ Int64.maxValue.toInt)
    (hr : Over rest) : integer (Nat.toDigits 10 n ++ rest) = some ((n : Int), rest) := by
  have hmin : Int64.minValue.toInt ≤ (n : Int) :=
    Int.le_trans (by decide) (Int.natCast_nonneg n)
  -- what follows a leading zero is not part of the number
  have base {x : Char} {zs : List Char} (he : Nat.toDigits 10 n ++ rest = '0' :: x :: zs) :
      x ∈ [' ', '\t', '#', '\n', '\r'] := by
    obtain ⟨-, hz⟩ := (of_digits_cons he).2 rfl
    exact hr x (hz ▸ rfl)
  unfold integer
  split
  · rename_i he
    exact absurd (base he) (by decide)
  · rename_i he
    exact absurd (base he) (by decide)
  · rename_i he
    exact absurd (base he) (by decide)
  · rename_i he
    exact absurd (of_digits_cons he).1 (by decide)
  · rename_i he
    exact absurd (of_digits_cons he).1 (by decide)
  · rw [decimal_digits hr]
    exact if_pos ⟨hmin, hn⟩

/-- The value is not a number beyond the integers of 64 bits. -/
def Value.Fits (v : Value) : Prop := ∀ n, v = .int n → n ≤ Int64.maxValue.toInt

/-- A value is read back from what stands for it. -/
theorem value_written {v : Value} {cs rest : List Char} (h : Written v cs) (hv : v.Fits)
    (hr : Over rest) : value (cs ++ rest) = some (v, rest) := by
  cases h with
  | text hb =>
      have hs := string_body hb hr
      simp only [List.cons_append, List.append_assoc, List.nil_append]
      rw [value, hs]
      rfl
  | int n =>
      have hi := integer_digits (hv n rfl) hr
      unfold value
      split
      · rename_i he
        exact absurd (of_digits_cons he).1 (by decide)
      · rename_i he
        exact absurd (of_digits_cons he).1 (by decide)
      · rw [hi]
        rfl

/-! ### Every value can be written -/

/-- The digits of a number are in lower case. -/
theorem map_toLower_toDigits (n : Nat) :
    (Nat.toDigits 16 n).map Char.toLower = Nat.toDigits 16 n := by
  have lower : ∀ k < 16, k.digitChar.toLower = k.digitChar := by decide
  induction n using Nat.strongRecOn with
  | ind n ih =>
      rw [Nat.toDigits_eq_if (by decide)]
      split
      · rename_i hlt
        simp [lower n hlt]
      · have hdiv : n / 16 < n := Nat.div_lt_self (by omega) (by decide)
        simp [ih _ hdiv, lower _ (Nat.mod_lt n (by decide))]

/-- Every character can be written, if only by its number. -/
theorem exists_spells (c : Char) : ∃ cs, Spells c cs := by
  have hlen : (Nat.toDigits 16 c.toNat).length ≤ 8 := by
    have hc : c.val.toNat < 16 ^ 8 := c.valid.elim (by omega) (by omega)
    exact (Nat.length_toDigits_le_iff (by decide) (by decide)).mpr hc
  let zeros := 8 - (Nat.toDigits 16 c.toNat).length
  let ds := List.replicate zeros '0' ++ Nat.toDigits 16 c.toNat
  have hl : ds.length = 8 := by
    rw [List.length_append, List.length_replicate]
    omega
  have hd : Hex c.toNat ds := by
    refine ⟨zeros, ?_⟩
    rw [List.map_append, List.map_replicate, map_toLower_toDigits]
    rfl
  exact ⟨_, .long hl hd⟩

theorem exists_body (s : List Char) : ∃ body, Body s body := by
  induction s with
  | nil => exact ⟨[], .nil⟩
  | cons c s ih =>
      obtain ⟨body, hb⟩ := ih
      obtain ⟨cs, hc⟩ := exists_spells c
      exact ⟨cs ++ body, .cons hc hb⟩

/-- A text, or a number that is not negative. -/
inductive Writable : Value → Prop
  | text (name : String) : Writable (.text name)
  | int (n : Nat) : Writable (.int n)

theorem exists_written {v : Value} (h : Writable v) : ∃ cs, Written v cs := by
  cases h with
  | text name =>
      obtain ⟨body, hb⟩ := exists_body name.toList
      exact ⟨_, .text hb⟩
  | int n => exact ⟨_, .int n⟩

end ReadThrough.Toml
