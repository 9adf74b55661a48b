import ReadThrough.Proofs.Settings.Values

/-! # Documents of TOML

What is read from a document of plain values.

* **Lines** (`Toml.Line`).  A line has an entry, a bare key with its value, or none.  Blanks may
  stand around everything, and a comment at the end.
* **Documents** (`Toml.Document`).  Lines with line ends between them.
* **Reading back** (`Toml.parse?_document`).  The entries of a document are read as they stand in
  it, if no key stands there twice and all numbers fit into 64 bits.
* **Writing** (`Toml.exists_document`).  There is a document of any such entries. -/

namespace ReadThrough.Toml

/-! ### What a document says -/

/-- Blanks and tabs only. -/
def Blank (cs : List Char) : Prop := ∀ c ∈ cs, isBlank c = true

/-- Nothing, or a comment. -/
def Comment (cs : List Char) : Prop := cs = [] ∨ ∃ t, cs = '#' :: t ∧ ∀ c ∈ t, isPlain c = true

/-- A key that needs no quotes. -/
def Bare (key : String) : Prop := key.toList ≠ [] ∧ ∀ c ∈ key.toList, isBare c = true

theorem blank_of_all {cs : List Char} (h : cs.all isBlank = true) : Blank cs :=
  List.all_eq_true.mp h

theorem bare_of_all {key : String} (h : key.toList ≠ [] ∧ key.toList.all isBare = true) :
    Bare key :=
  ⟨h.1, List.all_eq_true.mp h.2⟩

/-- A line of a document, with an entry or without one. -/
inductive Line : List (String × Value) → List Char → Prop
  | empty {indent comment : List Char} (hi : Blank indent) (hc : Comment comment) :
      Line [] (indent ++ comment)
  | entry {key : String} {v : Value} {indent before after value trail comment : List Char}
      (hi : Blank indent) (hk : Bare key) (hb : Blank before) (ha : Blank after)
      (hv : Written v value) (ht : Blank trail) (hc : Comment comment) :
      Line [(key, v)]
        (indent ++ (key.toList ++ (before ++ '=' :: (after ++ (value ++ (trail ++ comment))))))

/-- A line feed that a carriage return may precede. -/
def LineEnd (cs : List Char) : Prop := cs = ['\n'] ∨ cs = ['\r', '\n']

/-- Lines with line ends between them. -/
inductive Lines : List (String × Value) → List Char → Prop
  | last {es : List (String × Value)} {cs : List Char} (h : Line es cs) : Lines es cs
  | more {es fs : List (String × Value)} {cs ending ds : List Char} (h : Line es cs)
      (he : LineEnd ending) (hs : Lines fs ds) : Lines (es ++ fs) (cs ++ (ending ++ ds))

/-- The text is a document of the entries, in the order in which they stand. -/
def Document (entries : List (String × Value)) (text : String) : Prop :=
  Lines entries text.toList

/-! ### Lines -/

theorem isBlank_iff {c : Char} : isBlank c = true ↔ c = ' ' ∨ c = '\t' := by
  simp [isBlank]

theorem skipBlanks_append {b : List Char} (hb : Blank b) (cs : List Char) :
    skipBlanks (b ++ cs) = skipBlanks cs :=
  List.dropWhile_append_of_pos hb

theorem skipBlanks_cons {c : Char} (hc : isBlank c = false) (cs : List Char) :
    skipBlanks (c :: cs) = c :: cs := by
  rw [skipBlanks, List.dropWhile_cons, if_neg (by rw [hc]; decide)]

/-- What comes after the text of a line: nothing, or a line end. -/
inductive Rest : List Char → Prop
  | nil : Rest []
  | more {ending : List Char} (he : LineEnd ending) (ds : List Char) : Rest (ending ++ ds)

theorem Rest.eq_of_head {t : List Char} (h : Rest t) {c : Char} (hc : c ∈ t.head?) :
    c = '\n' ∨ c = '\r' := by
  cases h with
  | nil => cases hc
  | more he ds =>
      rcases he with rfl | rfl
      · exact Or.inl (Option.some.inj hc).symm
      · exact Or.inr (Option.some.inj hc).symm

/-- Behind the value of a line nothing is left to read but the line end. -/
theorem skipComment_append {cs t : List Char} (hc : Comment cs) (ht : Rest t) :
    skipComment (skipBlanks (cs ++ t)) = t := by
  have hblank : skipBlanks t = t := by
    cases t with
    | nil => rfl
    | cons c t =>
        refine skipBlanks_cons ?_ t
        rcases ht.eq_of_head rfl with rfl | rfl <;> rfl
  rcases hc with rfl | ⟨ds, rfl, hd⟩
  · rw [List.nil_append, hblank]
    cases t with
    | nil => rfl
    | cons c t =>
        rcases ht.eq_of_head rfl with rfl | rfl <;> rfl
  · rw [List.cons_append, skipBlanks_cons rfl]
    show List.dropWhile isPlain (ds ++ t) = t
    rw [List.dropWhile_append_of_pos hd]
    cases t with
    | nil => rfl
    | cons c t =>
        rcases ht.eq_of_head rfl with rfl | rfl <;> rfl

/-- What may follow a value on its line. -/
theorem over_trail {trail comment t : List Char} (hb : Blank trail) (hc : Comment comment)
    (ht : Rest t) : Over (trail ++ (comment ++ t)) := by
  intro c hm
  cases trail with
  | cons x trail =>
      obtain rfl := Option.some.inj hm
      rcases isBlank_iff.mp (hb x List.mem_cons_self) with rfl | rfl <;> decide
  | nil =>
      rcases hc with rfl | ⟨ds, rfl, -⟩
      · rcases ht.eq_of_head hm with rfl | rfl <;> decide
      · obtain rfl := Option.some.inj hm
        decide

/-- A bare key is read up to what cannot belong to it. -/
theorem key_bare {k : String} (hk : Bare k) {rest : List Char}
    (hr : ∀ c ∈ rest.head?, isBare c = false) : key (k.toList ++ rest) = some (k, rest) := by
  obtain ⟨hne, hb⟩ := hk
  obtain ⟨c, cs, hc⟩ := List.exists_cons_of_ne_nil hne
  have h0 := hb c (hc ▸ List.mem_cons_self)
  have hrest : rest.takeWhile isBare = [] ∧ rest.dropWhile isBare = rest := by
    cases rest with
    | nil => exact ⟨rfl, rfl⟩
    | cons x rest =>
        have hx := hr x rfl
        simp [hx]
  have htake : (k.toList ++ rest).takeWhile isBare = k.toList := by
    rw [List.takeWhile_append_of_pos hb, hrest.1, List.append_nil]
  have hdrop : (k.toList ++ rest).dropWhile isBare = rest := by
    rw [List.dropWhile_append_of_pos hb, hrest.2]
  unfold key
  split
  · rename_i he
    rw [hc] at he
    obtain ⟨rfl, -⟩ := List.cons.inj he
    exact absurd h0 (by decide)
  · rename_i he
    rw [hc] at he
    obtain ⟨rfl, -⟩ := List.cons.inj he
    exact absurd h0 (by decide)
  · rw [htake, hdrop]
    split
    · rename_i he
      exact absurd he hne
    · rw [String.ofList_toList]

/-- A key and its value are read, whatever blanks stand between them. -/
theorem entry_line {key : String} {v : Value} {before after value rest : List Char}
    (hk : Bare key) (hb : Blank before) (ha : Blank after) (hv : Written v value) (hf : v.Fits)
    (hr : Over rest) :
    entry (key.toList ++ (before ++ '=' :: (after ++ (value ++ rest)))) =
      some ((key, v), rest) := by
  have hkey : Toml.key (key.toList ++ (before ++ '=' :: (after ++ (value ++ rest)))) =
      some (key, before ++ '=' :: (after ++ (value ++ rest))) := by
    refine key_bare hk fun c hc => ?_
    cases before with
    | nil =>
        obtain rfl := Option.some.inj hc
        rfl
    | cons x before =>
        obtain rfl := Option.some.inj hc
        rcases isBlank_iff.mp (hb x List.mem_cons_self) with rfl | rfl <;> rfl
  have hvalue : skipBlanks (after ++ (value ++ rest)) = value ++ rest := by
    rw [skipBlanks_append ha]
    cases hv with
    | text hb => exact skipBlanks_cons rfl _
    | int n =>
        obtain ⟨c, ds, hc⟩ := List.exists_cons_of_ne_nil (Nat.toDigits_ne_nil (b := 10) (n := n))
        have hd : c.isDigit = true := Text.isDigit_toDigits (n := n) (hc ▸ List.mem_cons_self)
        rw [hc]
        refine skipBlanks_cons (Bool.eq_false_iff.mpr fun hx => ?_) _
        rcases isBlank_iff.mp hx with rfl | rfl <;> exact absurd hd (by decide)
  have hsign : skipBlanks (before ++ '=' :: (after ++ (value ++ rest))) =
      '=' :: (after ++ (value ++ rest)) := by
    rw [skipBlanks_append hb, skipBlanks_cons rfl]
  simp only [entry, hkey, hsign, hvalue, value_written hv hf hr, Option.bind_eq_bind,
    Option.bind_some]

/-- A line is read off the start of a document. -/
theorem lines_line {es : List (String × Value)} {cs t : List Char} (h : Line es cs)
    (hf : ∀ e ∈ es, e.2.Fits) (ht : Rest t) (fuel : Nat) :
    lines (fuel + 1) (cs ++ t) =
      if t = [] then some es
      else (newline? t).bind fun rest => (lines fuel rest).map (es ++ ·) := by
  cases h with
  | @empty indent comment hi hc =>
      have hs := skipComment_append hc ht
      rw [lines, List.append_assoc, skipBlanks_append hi]
      rcases hc with rfl | ⟨ds, rfl, hd⟩
      · cases ht with
        | nil => rfl
        | more he ds =>
            rcases he with rfl | rfl
            · rfl
            · rfl
      · rw [List.cons_append] at hs ⊢
        rw [skipBlanks_cons rfl]
        simp only [Option.bind_eq_bind, Option.bind_some]
        rw [hs]
        cases t with
        | nil => rfl
        | cons c t => rfl
  | @entry key v indent before after value trail comment hi hk hb ha hv htr hc =>
      have he := entry_line hk hb ha hv (hf _ List.mem_cons_self)
        (over_trail htr hc ht)
      have hs : skipComment (skipBlanks (trail ++ (comment ++ t))) = t := by
        rw [skipBlanks_append htr, skipComment_append hc ht]
      obtain ⟨c, k, hk'⟩ := List.exists_cons_of_ne_nil hk.1
      have hbare := hk.2 c (hk' ▸ List.mem_cons_self)
      have ne {x : Char} (hx : isBare x = false) : c ≠ x :=
        fun h => Bool.false_ne_true (hx.symm.trans (h ▸ hbare))
      have hblank : isBlank c = false := by
        simp [isBlank, ne (x := ' ') rfl, ne (x := '\t') rfl]
      have hnew (cs : List Char) : newline? (c :: cs) = none := by
        unfold newline?
        split
        · rename_i h
          exact absurd (List.cons.inj h).1 (ne rfl)
        · rename_i h
          exact absurd (List.cons.inj h).1 (ne rfl)
        · rfl
      rw [hk', List.cons_append] at he
      rw [lines]
      simp only [List.append_assoc, List.cons_append]
      rw [skipBlanks_append hi, hk', List.cons_append, skipBlanks_cons hblank]
      split
      · rename_i h
        cases h
      · rename_i h
        exact absurd (List.cons.inj h).1 (ne rfl)
      · rename_i h
        obtain ⟨rfl, -⟩ := List.cons.inj h
        rw [hnew, Option.isSome_none, if_neg Bool.false_ne_true, if_neg (ne rfl), he]
        simp only [Option.map_some, Option.bind_eq_bind, Option.bind_some, hs]
        cases t with
        | nil => rfl
        | cons c t => rfl

/-- All lines of a document are read. -/
theorem lines_document {es : List (String × Value)} {cs : List Char} (h : Lines es cs)
    (hf : ∀ e ∈ es, e.2.Fits) {fuel : Nat} (hfuel : cs.length < fuel) :
    lines fuel cs = some es := by
  induction h generalizing fuel with
  | last h =>
      obtain ⟨n, rfl⟩ := Nat.exists_eq_succ_of_ne_zero (Nat.ne_of_gt (Nat.zero_lt_of_lt hfuel))
      have hl := lines_line h hf .nil n
      rwa [List.append_nil, if_pos rfl] at hl
  | @more es fs cs ending ds h he hs ih =>
      obtain ⟨n, rfl⟩ := Nat.exists_eq_succ_of_ne_zero (Nat.ne_of_gt (Nat.zero_lt_of_lt hfuel))
      have hne : ending ++ ds ≠ [] := by
        rcases he with rfl | rfl <;> exact List.cons_ne_nil _ _
      have hend : newline? (ending ++ ds) = some ds := by
        rcases he with rfl | rfl <;> rfl
      have hlen : 0 < ending.length := by
        rcases he with rfl | rfl <;> decide
      rw [List.length_append, List.length_append] at hfuel
      have hlt : ds.length < n := by omega
      have hrest := ih (fun e hm => hf e (List.mem_append_right es hm)) hlt
      rw [lines_line h (fun e hm => hf e (List.mem_append_left fs hm)) (.more he ds) n,
        if_neg hne, hend, Option.bind_some, hrest, Option.map_some]

/-- No line starts with a byte order mark. -/
theorem head_line {es : List (String × Value)} {cs t : List Char} (h : Line es cs) (ht : Rest t) :
    ∀ c ∈ (cs ++ t).head?, c ≠ '\ufeff' := by
  rintro c hc rfl
  cases h with
  | empty hi hm =>
      rw [List.append_assoc] at hc
      exact absurd (over_trail hi hm ht _ hc) (by decide)
  | @entry key v indent before after value trail comment hi hk hb ha hv htr hm =>
      cases indent with
      | cons x indent =>
          obtain rfl := Option.some.inj hc
          exact absurd (hi _ List.mem_cons_self) (by decide)
      | nil =>
          obtain ⟨x, k, hk'⟩ := List.exists_cons_of_ne_nil hk.1
          rw [hk'] at hc
          obtain rfl := Option.some.inj hc
          exact absurd (hk.2 _ (hk' ▸ List.mem_cons_self)) (by decide)

theorem head_lines {es : List (String × Value)} {cs : List Char} (h : Lines es cs) :
    ∀ c ∈ cs.head?, c ≠ '\ufeff' := by
  cases h with
  | last h => simpa using head_line h .nil
  | more h he hs => exact head_line h (.more he _)

/-- The entries of a document are read as they stand in it. -/
theorem parse?_document {es : List (String × Value)} {text : String} (h : Document es text)
    (hf : ∀ e ∈ es, e.2.Fits) (hk : (es.map (·.1)).Nodup) : parse? text = some es := by
  unfold parse?
  split
  · rename_i he
    exact absurd rfl (head_lines h _ (he ▸ rfl))
  · dsimp only
    rw [lines_document h hf (Nat.lt_succ_self _)]
    exact if_pos hk

/-! ### Documents can be written -/

theorem document_ofList {es : List (String × Value)} {cs : List Char} (h : Lines es cs) :
    Document es (String.ofList cs) := by
  rwa [Document, String.toList_ofList]

/-- There is a document of any entries whose keys need no quotes. -/
theorem exists_document {es : List (String × Value)} (h : ∀ e ∈ es, Bare e.1 ∧ Writable e.2) :
    ∃ text, Document es text := by
  have none : Blank [] := blank_of_all rfl
  induction es with
  | nil => exact ⟨"", .last (.empty none (Or.inl rfl))⟩
  | cons e es ih =>
      obtain ⟨text, hd⟩ := ih fun e he => h e (List.mem_cons_of_mem _ he)
      obtain ⟨hk, hp⟩ := h e List.mem_cons_self
      obtain ⟨cs, hv⟩ := exists_written hp
      have hl := Line.entry none hk none none hv none (Or.inl rfl)
      exact ⟨_, document_ofList (.more hl (Or.inl rfl) hd)⟩

end ReadThrough.Toml
