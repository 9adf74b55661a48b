import ReadThrough.Proofs.Json.Values

/-! # Forms that lose nothing

A form is lossless (`Json.Form.Lossless`) if what it writes is read back as the value itself,
whatever follows that could not belong to it.

* **Integers** (`Json.Form.lossless_integer`).  The bounds of a type are all that its reader asks
  for, and its values are within them.
* **Options** (`Json.Form.lossless_option`), as long as no value starts like the word for nothing.
* **Lists and maps** (`Json.Form.lossless_list`, `Json.Form.lossless_map`) of a lossless form.  A
  map is read entry by entry, and each key occurs once, so no entry is lost over another one. -/

namespace ReadThrough.Json.Form

open Utf8

/-- What is written is read back. -/
structure Lossless {α : Type} (f : Form α) : Prop where
  starts : ∀ v, Starts (f.write v)
  reads : ∀ v rest, Ends rest → f.read (encode (f.write v) ++ rest) = some (v, rest)

/-! ### Scalars -/

theorem lossless_text : text.Lossless where
  starts _ := starts_ascii (by decide) (by decide) (by decide) (by decide) _
  reads s rest _ := stringToken_quoted s rest

theorem lossless_truth : truth.Lossless where
  starts b := by
    cases b
    · exact starts_ascii (by decide) (by decide) (by decide) (by decide) _
    · exact starts_ascii (by decide) (by decide) (by decide) (by decide) _
  reads b rest _ := by cases b <;> rfl

theorem lossless_unit : unit.Lossless where
  starts _ := starts_ascii (by decide) (by decide) (by decide) (by decide) _
  reads _ _ _ := rfl

/-- An integer is read by a reader whose bounds it meets. -/
theorem intWithin_decimal {lo hi n : Int} (hn : (Number.int n).Valid) (hlo : lo ≤ n) (hhi : n ≤ hi)
    {rest : List UInt8} (hr : Ends rest) :
    intWithin lo hi (encode (Text.decimal n) ++ rest) = some (n, rest) := by
  have hread : numeral (encode (Text.decimal n) ++ rest) = some (.int n, rest) := by
    obtain ⟨b, bs, hb, hstart⟩ := hn.start
    have hb : encode (Text.decimal n) = b :: bs := hb
    have hskip : skipSpace (encode (Text.decimal n) ++ rest) = encode (Text.decimal n) ++ rest := by
      rw [hb, List.cons_append, skipSpace_cons hstart.isSpace]
    rw [numeral, hskip, numberToken_decimal hn.1 hn.2 hr]
  unfold intWithin
  rw [hread]
  exact if_pos ⟨hlo, hhi⟩

/-- Integers between two bounds. -/
theorem lossless_integer {α : Type} {f : Form α} {lo hi : Int} (toInt : α → Int)
    (ofInt : Int → α) (hlo : -2 ^ 63 ≤ lo) (hhi : hi < 2 ^ 64)
    (hrange : ∀ v, lo ≤ toInt v ∧ toInt v ≤ hi) (hback : ∀ v, ofInt (toInt v) = v)
    (hwrite : ∀ v, f.write v = Text.decimal (toInt v))
    (hread : ∀ bs, f.read bs = (intWithin lo hi bs).map fun x => (ofInt x.1, x.2)) :
    f.Lossless := by
  have hvalid (v : α) : (Number.int (toInt v)).Valid :=
    ⟨hlo.trans (hrange v).1, (hrange v).2.trans_lt hhi⟩
  refine ⟨fun v => ?_, fun v rest hr => ?_⟩
  · rw [hwrite]
    exact (hvalid v).starts
  · rw [hwrite, hread, intWithin_decimal (hvalid v) (hrange v).1 (hrange v).2 hr, Option.map_some,
      hback]

theorem lossless_unsigned : unsigned.Lossless := by
  refine lossless_integer (fun n => n.toNat) (fun n => UInt64.ofNat n.toNat) (by decide)
    (by decide) (fun n => ?_) (fun n => by simp) (fun _ => rfl) fun _ => rfl
  have hn := n.toNat_lt
  have hsize : UInt64.size = 2 ^ 64 := rfl
  omega

theorem lossless_signed : signed.Lossless :=
  lossless_integer Int64.toInt Int64.ofInt (by decide) (by decide)
    (fun n => ⟨n.minValue_le_toInt, n.toInt_le⟩) Int64.ofInt_toInt (fun _ => rfl) fun _ => rfl

theorem lossless_octet : octet.Lossless := by
  refine lossless_integer (fun n => n.toNat) (fun n => UInt8.ofNat n.toNat) (by decide)
    (by decide) (fun n => ?_) (fun n => by simp) (fun _ => rfl) fun _ => rfl
  have hn := n.toNat_lt
  omega

/-- A signed integer starts with its sign or a digit. -/
theorem signed_start (n : Int64) :
    ∃ b bs, encode (signed.write n) = b :: bs ∧ IsNumberStart b := by
  have hvalid : (Number.int n.toInt).Valid :=
    ⟨n.le_toInt, n.toInt_lt.trans (by decide)⟩
  exact hvalid.start

/-! ### Options and lists -/

section

variable {α : Type} {f : Form α} (h : f.Lossless)
include h

theorem lossless_option (hne : ∀ v, (encode (f.write v)).head? ≠ some (ascii 'n')) :
    (option f).Lossless where
  starts
    | none => starts_ascii (by decide) (by decide) (by decide) (by decide) _
    | some v => h.starts v
  reads
    | none, _, _ => rfl
    | some v, rest, hr => by
        have hread := h.reads v rest hr
        have hn := hne v
        obtain ⟨b, bs, hb, hspace, -⟩ := h.starts v
        rw [hb] at hn
        have hskip : (skipSpace (encode (f.write v) ++ rest)).head? ≠ some (ascii 'n') := by
          rw [hb, List.cons_append, skipSpace_cons hspace]
          exact hn
        show (if (skipSpace (encode (f.write v) ++ rest)).head? = some (ascii 'n') then _
          else (f.read (encode (f.write v) ++ rest)).map _) = _
        rw [if_neg hskip, hread]
        rfl

theorem lossless_list : (list f).Lossless where
  starts _ := starts_ascii (by decide) (by decide) (by decide) (by decide) _
  reads vs rest _ := by
    have hread := enclosed_append (o := '[') (r := some) (by decide) (by decide) (Or.inl rfl)
      (fun v (_ : v ∈ vs) => h.starts v) (fun v _ => h.reads v) rest
    rw [show vs.mapM some = some (vs.map id) from List.mapM_pure, List.map_id] at hread
    exact hread

end

/-! ### Maps -/

section

variable {κ α : Type} [Ord κ] [Std.TransOrd κ] [Std.LawfulEqOrd κ] [DecidableEq κ]

/-- The entries of a map make the map. -/
theorem ofList_toList (m : Std.ExtTreeMap κ α) : Std.ExtTreeMap.ofList m.toList = m := by
  refine Std.ExtTreeMap.ext_getElem? fun k => ?_
  cases hk : m[k]? with
  | some v =>
      exact Std.ExtTreeMap.getElem?_ofList_of_mem Std.ReflCmp.compare_self
        Std.ExtTreeMap.distinct_keys_toList (Std.ExtTreeMap.mem_toList_iff_getElem?_eq_some.mpr hk)
  | none =>
      refine Std.ExtTreeMap.getElem?_ofList_of_contains_eq_false ?_
      rw [Std.ExtTreeMap.map_fst_toList_eq_keys, Bool.eq_false_iff, ne_eq, List.contains_iff_mem,
        Std.ExtTreeMap.mem_keys, ← Std.ExtTreeMap.isSome_getElem?_iff_mem, hk]
      exact Bool.false_ne_true

/-- A map is read as its keys and values are. -/
theorem lossless_map {f : Form α} (h : f.Lossless) {w : κ → List Char} {key : Reader κ}
    {g : Form (Std.ExtTreeMap κ α)} (hstart : ∀ k, Starts (w k))
    (hkey : ∀ k rest, key (encode (w k) ++ rest) = some (k, rest))
    (hwrite : ∀ m, g.write m = objectText (m.toList.map fun e => (w e.1, f.write e.2)))
    (hread : ∀ bs, g.read bs = (objectOf key (fun _ => f.read) bs).map fun x =>
      (x.1.foldl (fun m e => m.insert e.1 e.2) ∅, x.2)) : g.Lossless where
  starts m := by
    rw [hwrite]
    exact starts_ascii (by decide) (by decide) (by decide) (by decide) _
  reads m rest _ := by
    have hentries := objectOf_append (fun _ => f.read) (r := some) (fun e _ => hstart e.1)
      (fun e _ => hkey e.1) (fun e (_ : e ∈ m.toList) => h.reads e.2) rest
    have hall : (m.toList.mapM fun e => (some e.2).map fun v => (e.1, v)) = some m.toList :=
      (List.mapM_pure (f := id)).trans (congrArg some (List.map_id _))
    rw [hall] at hentries
    rw [hwrite, hread, hentries, Option.map_some, Option.map_some, ← Std.ExtTreeMap.ofList_eq_foldl,
      ofList_toList]

end

theorem lossless_textMap {α : Type} {f : Form α} (h : f.Lossless) : (textMap f).Lossless :=
  lossless_map h (fun _ => starts_ascii (by decide) (by decide) (by decide) (by decide) _)
    stringToken_quoted (fun _ => rfl) fun _ => rfl

/-- A quoted integer is read back. -/
theorem intKey_quoted (k : Int64) (rest : List UInt8) :
    intKey (encode ('"' :: (Text.decimal k.toInt ++ ['"'])) ++ rest) = some (k, rest) := by
  obtain ⟨b, bs, hb, hstart⟩ := signed_start k
  have hquote : Ends (ascii '"' :: rest) := by
    intro c hc
    obtain rfl := Option.some.inj hc
    decide
  have hread := lossless_signed.reads k (ascii '"' :: rest) hquote
  have hopen : encode ('"' :: (Text.decimal k.toInt ++ ['"'])) ++ rest =
      ascii '"' :: (encode (signed.write k) ++ ascii '"' :: rest) := by
    show encode ('"' :: (signed.write k ++ ['"'])) ++ rest = _
    rw [encode_cons, encode_append, List.append_assoc, List.append_assoc]
    rfl
  rw [hb, List.cons_append] at hread
  unfold intKey
  rw [hopen, byte_cons (by decide), hb, List.cons_append]
  simp only [Option.bind_eq_bind, Option.bind_some, hstart.isSpace, Bool.false_eq_true, if_false,
    hread, if_true]

theorem lossless_intMap {α : Type} {f : Form α} (h : f.Lossless) : (intMap f).Lossless :=
  lossless_map h (fun _ => starts_ascii (by decide) (by decide) (by decide) (by decide) _)
    intKey_quoted (fun _ => rfl) fun _ => rfl

end ReadThrough.Json.Form
