import Mathlib.Data.String.Basic
import Mathlib.Tactic.SplitIfs
import ReadThrough.Text.Utf8

/-! # UTF-8

* **Order.**  The bytes of texts are ordered as the texts themselves: a character with a greater
  number has bytes that come later (`Utf8.encodeChar_append_lt`), so comparing bytes and comparing
  characters comes to the same (`Utf8.bytes_lt_bytes_iff`).
* **Reading back.**  The first character is read off its bytes, whatever follows
  (`Utf8.first_encodeChar`), so a text is read off its bytes (`Utf8.string?_bytes`).
* **Nothing else.**  A character is read only where its bytes stand (`Utf8.eq_append_of_first`), so
  bytes are a text if and only if they are the bytes of one (`Utf8.string?_eq_some_iff`). -/

namespace ReadThrough.Utf8

theorem ofNat_lt_ofNat {a b : Nat} (ha : a < 256) (hb : b < 256) :
    UInt8.ofNat a < UInt8.ofNat b ↔ a < b := by
  rw [UInt8.lt_iff_toNat_lt, UInt8.toNat_ofNat_of_lt' ha, UInt8.toNat_ofNat_of_lt' hb]

theorem ofNat_inj {a b : Nat} (ha : a < 256) (hb : b < 256) :
    UInt8.ofNat a = UInt8.ofNat b ↔ a = b := by
  rw [← UInt8.toNat_inj, UInt8.toNat_ofNat_of_lt' ha, UInt8.toNat_ofNat_of_lt' hb]

theorem toNat_val_lt (c : Char) : c.val.toNat < 0x110000 :=
  c.valid.elim (by omega) (by omega)

/-- The first byte in which two characters differ decides, whatever follows them. -/
theorem encodeChar_append_lt {c d : Char} (h : c < d) (xs ys : List UInt8) :
    String.utf8EncodeChar c ++ xs < String.utf8EncodeChar d ++ ys := by
  have hcd : c.val.toNat < d.val.toNat := h
  have hc := toNat_val_lt c
  have hd := toNat_val_lt d
  unfold String.utf8EncodeChar
  generalize c.val.toNat = m at *
  generalize d.val.toNat = n at *
  -- each byte carries on where the one before it has stopped
  have digits (x : Nat) (hx : x < 0x110000) :
      x / 64 / 64 = x / 4096 ∧ x / 4096 / 64 = x / 262144 ∧ x / 262144 % 8 = x / 262144 :=
    ⟨Nat.div_div_eq_div_mul x 64 64, Nat.div_div_eq_div_mul x 4096 64,
      Nat.mod_eq_of_lt (by omega)⟩
  obtain ⟨hm, hm', hm''⟩ := digits m hc
  obtain ⟨hn, hn', hn''⟩ := digits n hd
  dsimp only
  split_ifs <;>
    simp (disch := omega) only [List.cons_append, List.nil_append, List.cons_lt_cons_iff,
      ofNat_lt_ofNat, ofNat_inj] <;>
    omega

theorem encodeChar_ne_nil (c : Char) : String.utf8EncodeChar c ≠ [] := by
  unfold String.utf8EncodeChar
  dsimp only
  split_ifs <;> exact List.cons_ne_nil _ _

/-- Earlier characters have earlier bytes. -/
theorem encode_lt_encode {cs ds : List Char} (h : cs < ds) : encode cs < encode ds := by
  induction h with
  | @nil d ds =>
      obtain ⟨b, bs, hb⟩ := List.exists_cons_of_ne_nil (encodeChar_ne_nil d)
      have he : encode (d :: ds) = b :: (bs ++ encode ds) := by
        rw [encode, List.flatMap_cons, hb, List.cons_append, encode]
      rw [he]
      exact List.nil_lt_cons _ _
  | rel hcd => exact encodeChar_append_lt hcd _ _
  | cons _ ih => exact List.append_left_lt ih

/-- **Bytes are ordered as texts are.** -/
theorem bytes_lt_bytes_iff {s t : String} : bytes s < bytes t ↔ s < t := by
  constructor
  · intro h
    rcases lt_trichotomy s t with hl | rfl | hg
    · exact hl
    · exact absurd h (List.lt_irrefl _)
    · exact absurd h (List.lt_asymm (encode_lt_encode (String.lt_iff.mp hg)))
  · intro h
    exact encode_lt_encode (String.lt_iff.mp h)

/-! ### Reading back -/

theorem toNat_ofNat {a : Nat} (h : a < 256) : (UInt8.ofNat a).toNat = a :=
  UInt8.toNat_ofNat_of_lt' h

theorem ofNat_le_ofNat {a b : Nat} (ha : a < 256) (hb : b < 256) :
    UInt8.ofNat a ≤ UInt8.ofNat b ↔ a ≤ b := by
  rw [UInt8.le_iff_toNat_le, toNat_ofNat ha, toNat_ofNat hb]

/-- The bytes that `first` looks for, as bytes of numbers. -/
theorem literals : (0x80 : UInt8) = UInt8.ofNat 128 ∧ (0x8F : UInt8) = UInt8.ofNat 143 ∧
    (0x90 : UInt8) = UInt8.ofNat 144 ∧ (0x9F : UInt8) = UInt8.ofNat 159 ∧
    (0xA0 : UInt8) = UInt8.ofNat 160 ∧ (0xBF : UInt8) = UInt8.ofNat 191 ∧
    (0xC2 : UInt8) = UInt8.ofNat 194 ∧ (0xDF : UInt8) = UInt8.ofNat 223 ∧
    (0xE0 : UInt8) = UInt8.ofNat 224 ∧ (0xED : UInt8) = UInt8.ofNat 237 ∧
    (0xEF : UInt8) = UInt8.ofNat 239 ∧ (0xF0 : UInt8) = UInt8.ofNat 240 ∧
    (0xF4 : UInt8) = UInt8.ofNat 244 := by
  decide

theorem width_ofNat {a : Nat} (h : a < 256) :
    width (UInt8.ofNat a) =
      if a < 128 then 1 else if 194 ≤ a ∧ a ≤ 223 then 2 else if 224 ≤ a ∧ a ≤ 239 then 3
      else if 240 ≤ a ∧ a ≤ 244 then 4 else 0 := by
  unfold width
  simp (disch := omega) only [literals, Bool.and_eq_true, decide_eq_true_eq, ofNat_lt_ofNat,
    ofNat_le_ofNat]

theorem isTail_ofNat {y : Nat} (h : y < 64) : isTail (UInt8.ofNat (y + 128)) = true := by
  unfold isTail
  simp (disch := omega) only [literals, Bool.and_eq_true, decide_eq_true_eq, ofNat_le_ofNat]
  omega

/-- The second byte of a character is free but after four first bytes: there it must not make the
form overlong, a surrogate or too large. -/
theorem isSecond_ofNat {a y : Nat} (ha : a < 256) (hy : y < 64) (h0 : a = 224 → 32 ≤ y)
    (h1 : a = 237 → y < 32) (h2 : a = 240 → 16 ≤ y) (h3 : a = 244 → y < 16) :
    isSecond (UInt8.ofNat a) (UInt8.ofNat (y + 128)) = true := by
  have ht := isTail_ofNat hy
  unfold isSecond
  simp (disch := omega) only [literals, ofNat_inj, ofNat_le_ofNat, ht]
  split_ifs <;> simp <;> omega

theorem payload_ofNat {y : Nat} (h : y < 64) : payload (UInt8.ofNat (y + 128)) = y := by
  unfold payload
  rw [toNat_ofNat (by omega)]
  omega

section

variable {a b c d : UInt8} (rest : List UInt8)

theorem first_one (hw : width a = 1) : first (a :: rest) = (some (Char.ofNat a.toNat), 1) := by
  simp only [first, hw]

theorem first_two (hw : width a = 2) (hb : isTail b = true) :
    first (a :: b :: rest) = (some (Char.ofNat (a.toNat % 32 * 64 + payload b)), 2) := by
  simp only [first, hw, hb, if_true]

theorem first_three (hw : width a = 3) (hb : isSecond a b = true) (hc : isTail c = true) :
    first (a :: b :: c :: rest) =
      (some (Char.ofNat (a.toNat % 16 * 4096 + payload b * 64 + payload c)), 3) := by
  simp only [first, hw, hb, hc, if_true]

theorem first_four (hw : width a = 4) (hb : isSecond a b = true) (hc : isTail c = true)
    (hd : isTail d = true) :
    first (a :: b :: c :: d :: rest) =
      (some (Char.ofNat
        (a.toNat % 8 * 262144 + payload b * 4096 + payload c * 64 + payload d)), 4) := by
  simp only [first, hw, hb, hc, hd, if_true]

end

/-- The first character of a text is the one whose bytes stand there. -/
theorem first_encodeChar (c : Char) (rest : List UInt8) :
    first (String.utf8EncodeChar c ++ rest) = (some c, (String.utf8EncodeChar c).length) := by
  have hv : Char.ofNat c.val.toNat = c := Char.ofNat_toNat c
  have hvalid := c.valid
  unfold String.utf8EncodeChar
  unfold UInt32.isValidChar Nat.isValidChar at hvalid
  generalize c.val.toNat = n at *
  dsimp only
  split_ifs with h1 h2 h3
  · refine (first_one rest ?_).trans ?_
    · rw [width_ofNat (by omega), if_pos (by omega)]
    · rw [toNat_ofNat (by omega), hv]
      rfl
  · refine (first_two rest ?_ (isTail_ofNat (by omega))).trans ?_
    · rw [width_ofNat (by omega), if_neg (by omega), if_pos (by omega)]
    · rw [toNat_ofNat (by omega), payload_ofNat (by omega),
        show (n / 64 % 32 + 192) % 32 * 64 + n % 64 = n by omega, hv]
      rfl
  · refine (first_three rest ?_ (isSecond_ofNat (by omega) (by omega) (by omega) (by omega)
      (by omega) (by omega)) (isTail_ofNat (by omega))).trans ?_
    · rw [width_ofNat (by omega), if_neg (by omega), if_neg (by omega), if_pos (by omega)]
    · rw [toNat_ofNat (by omega), payload_ofNat (by omega), payload_ofNat (by omega),
        show (n / 4096 % 16 + 224) % 16 * 4096 + n / 64 % 64 * 64 + n % 64 = n by omega, hv]
      rfl
  · refine (first_four rest ?_ (isSecond_ofNat (by omega) (by omega) (by omega) (by omega)
      (by omega) (by omega)) (isTail_ofNat (by omega)) (isTail_ofNat (by omega))).trans ?_
    · rw [width_ofNat (by omega), if_neg (by omega), if_neg (by omega), if_neg (by omega),
        if_pos (by omega)]
    · rw [toNat_ofNat (by omega), payload_ofNat (by omega), payload_ofNat (by omega),
        payload_ofNat (by omega), show (n / 262144 % 8 + 240) % 8 * 262144 +
          n / 4096 % 64 * 4096 + n / 64 % 64 * 64 + n % 64 = n by omega, hv]
      rfl

/-- **What is written is read back.** -/
theorem decode_encode (cs : List Char) : decode (encode cs) = some cs := by
  induction cs with
  | nil => exact decode.eq_def []
  | cons c cs ih =>
      have hf := first_encodeChar c (encode cs)
      obtain ⟨b, bs, hb⟩ := List.exists_cons_of_ne_nil (encodeChar_ne_nil c)
      have he : encode (c :: cs) = b :: (bs ++ encode cs) := by
        rw [encode, List.flatMap_cons, hb, List.cons_append, encode]
      rw [hb, List.cons_append] at hf
      rw [he, decode, hf]
      dsimp only
      rw [← List.cons_append, List.drop_left, ih]
      rfl

theorem string?_bytes (s : String) : string? (bytes s) = some s := by
  rw [string?, bytes, decode_encode, Option.map_some, String.ofList_toList]

theorem bytes_inj {s t : String} : bytes s = bytes t ↔ s = t := by
  refine ⟨fun h => ?_, congrArg bytes⟩
  have hs := string?_bytes s
  rw [h, string?_bytes] at hs
  exact (Option.some.inj hs).symm

/-! ### Nothing else is read -/

theorem toNat_val_ofNat {n : Nat} (h : n.isValidChar) : (Char.ofNat n).val.toNat = n := by
  rw [Char.ofNat, dif_pos h]
  rfl

/-- A byte is known by its number. -/
theorem ofNat_eq_of_toNat {a : UInt8} {n : Nat} (h : n = a.toNat) : UInt8.ofNat n = a := by
  rw [h, UInt8.ofNat_toNat]

theorem range_iff (lo hi b : UInt8) :
    (lo ≤ b && b ≤ hi) = true ↔ lo.toNat ≤ b.toNat ∧ b.toNat ≤ hi.toNat := by
  rw [Bool.and_eq_true, decide_eq_true_eq, decide_eq_true_eq, UInt8.le_iff_toNat_le,
    UInt8.le_iff_toNat_le]

theorem isTail_iff (b : UInt8) : isTail b = true ↔ 128 ≤ b.toNat ∧ b.toNat ≤ 191 :=
  range_iff 0x80 0xBF b

theorem isSecond_bounds {a b : UInt8} (h : isSecond a b = true) :
    128 ≤ b.toNat ∧ b.toNat ≤ 191 ∧ (a.toNat = 224 → 160 ≤ b.toNat) ∧
      (a.toNat = 237 → b.toNat < 160) ∧ (a.toNat = 240 → 144 ≤ b.toNat) ∧
      (a.toNat = 244 → b.toNat < 144) := by
  have ha (x : UInt8) : a = x ↔ a.toNat = x.toNat := UInt8.toNat_inj.symm
  unfold isSecond at h
  simp only [ha, UInt8.reduceToNat] at h
  split_ifs at h <;> simp only [range_iff, isTail_iff, UInt8.reduceToNat] at h <;> omega

/-- What the first byte must be for a character of each width. -/
theorem width_cases (a : UInt8) :
    width a = 1 ∧ a.toNat < 128 ∨ width a = 2 ∧ 194 ≤ a.toNat ∧ a.toNat ≤ 223 ∨
      width a = 3 ∧ 224 ≤ a.toNat ∧ a.toNat ≤ 239 ∨ width a = 4 ∧ 240 ≤ a.toNat ∧ a.toNat ≤ 244 ∨
      width a = 0 := by
  have hw := width_ofNat a.toNat_lt
  rw [UInt8.ofNat_toNat] at hw
  split_ifs at hw <;> omega

section

variable {a b c d : UInt8}

theorem encodeChar_one (ha : a.toNat < 128) :
    String.utf8EncodeChar (Char.ofNat a.toNat) = [a] := by
  unfold String.utf8EncodeChar
  rw [toNat_val_ofNat (Or.inl (by omega))]
  dsimp only
  rw [if_pos (by omega), UInt8.ofNat_toNat]

theorem encodeChar_two (ha : 194 ≤ a.toNat ∧ a.toNat ≤ 223) (hb : isTail b = true) :
    String.utf8EncodeChar (Char.ofNat (a.toNat % 32 * 64 + payload b)) = [a, b] := by
  rw [isTail_iff] at hb
  unfold String.utf8EncodeChar payload
  rw [toNat_val_ofNat (Or.inl (by omega))]
  dsimp only
  rw [if_neg (by omega), if_pos (by omega), ofNat_eq_of_toNat (a := a) (by omega),
    ofNat_eq_of_toNat (a := b) (by omega)]

theorem encodeChar_three (ha : 224 ≤ a.toNat ∧ a.toNat ≤ 239) (hb : isSecond a b = true)
    (hc : isTail c = true) :
    String.utf8EncodeChar
      (Char.ofNat (a.toNat % 16 * 4096 + payload b * 64 + payload c)) = [a, b, c] := by
  have hb := isSecond_bounds hb
  rw [isTail_iff] at hc
  unfold String.utf8EncodeChar payload
  rw [toNat_val_ofNat (by unfold Nat.isValidChar; omega)]
  dsimp only
  rw [if_neg (by omega), if_neg (by omega), if_pos (by omega),
    ofNat_eq_of_toNat (a := a) (by omega), ofNat_eq_of_toNat (a := b) (by omega),
    ofNat_eq_of_toNat (a := c) (by omega)]

theorem encodeChar_four (ha : 240 ≤ a.toNat ∧ a.toNat ≤ 244) (hb : isSecond a b = true)
    (hc : isTail c = true) (hd : isTail d = true) :
    String.utf8EncodeChar
      (Char.ofNat (a.toNat % 8 * 262144 + payload b * 4096 + payload c * 64 + payload d)) =
        [a, b, c, d] := by
  have hb := isSecond_bounds hb
  rw [isTail_iff] at hc hd
  unfold String.utf8EncodeChar payload
  rw [toNat_val_ofNat (by unfold Nat.isValidChar; omega)]
  dsimp only
  rw [if_neg (by omega), if_neg (by omega), if_neg (by omega),
    ofNat_eq_of_toNat (a := a) (by omega), ofNat_eq_of_toNat (a := b) (by omega),
    ofNat_eq_of_toNat (a := c) (by omega), ofNat_eq_of_toNat (a := d) (by omega)]

end

/-- A character is read only where its bytes stand. -/
theorem eq_append_of_first {bs : List UInt8} {c : Char} {n : Nat} (h : first bs = (some c, n)) :
    bs = String.utf8EncodeChar c ++ bs.drop n := by
  cases bs with
  | nil => cases h
  | cons a rest =>
      have hw := width_cases a
      simp only [first] at h
      split at h
      · obtain ⟨hc, rfl⟩ := Prod.mk.inj h
        obtain rfl := Option.some.inj hc
        rw [encodeChar_one (by omega)]
        rfl
      · split at h
        · rename_i hb
          obtain ⟨hc, rfl⟩ := Prod.mk.inj h
          obtain rfl := Option.some.inj hc
          rw [encodeChar_two (by omega) hb]
          rfl
        · cases h
      · split at h
        · split at h
          · rename_i hb ht
            obtain ⟨hc, rfl⟩ := Prod.mk.inj h
            obtain rfl := Option.some.inj hc
            rw [encodeChar_three (by omega) hb ht]
            rfl
          · cases h
        · cases h
      · cases h
      · split at h
        · split at h
          · split at h
            · rename_i hb ht ht'
              obtain ⟨hc, rfl⟩ := Prod.mk.inj h
              obtain rfl := Option.some.inj hc
              rw [encodeChar_four (by omega) hb ht ht']
              rfl
            · cases h
          · cases h
        · cases h
      · cases h
      · cases h
      · cases h

/-- **Nothing else is read than what is written.** -/
theorem encode_of_decode {bs : List UInt8} {cs : List Char} (h : decode bs = some cs) :
    encode cs = bs := by
  induction bs using decode.induct generalizing cs with
  | case1 =>
      rw [decode] at h
      obtain rfl := Option.some.inj h
      rfl
  | case2 a rest c hc ih =>
      rw [decode, hc] at h
      obtain ⟨ds, hd, rfl⟩ := Option.map_eq_some_iff.mp h
      rw [encode, List.flatMap_cons, ← encode, ih hd]
      exact (eq_append_of_first (Prod.ext hc rfl)).symm
  | case3 a rest hc =>
      rw [decode, hc] at h
      cases h

/-- Bytes are a text if and only if they are the bytes of one. -/
theorem string?_eq_some_iff {bs : List UInt8} {s : String} :
    string? bs = some s ↔ bytes s = bs := by
  constructor
  · intro h
    obtain ⟨cs, hc, rfl⟩ := Option.map_eq_some_iff.mp h
    rw [bytes, String.toList_ofList]
    exact encode_of_decode hc
  · rintro rfl
    exact string?_bytes s

end ReadThrough.Utf8
