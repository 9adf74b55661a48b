import Mathlib.Data.String.Basic
import ReadThrough.Json.Form
import ReadThrough.Proofs.Json.Doubles
import ReadThrough.Proofs.Json.Lists

/-! # Values of JSON

What is read where a value was written.

* **Values** (`Json.Over`).  The numbers have a text, and the fields of an object are in the order
  of their keys.
* **Depth** (`Json.depth`).  How many arrays and objects are open within each other.
* **Reading back** (`Json.value_render`).  A value is read if and only if it is no deeper than the
  reader goes.  What is read has the same shape, with the numbers as they come back
  (`Json.afresh`); it is the value itself if all its numbers come back
  (`Json.afresh_eq`). -/

namespace ReadThrough.Json

open Utf8

/-! ### Values -/

/-- A number that a value can have: an integer of 64 bits, or a finite number. -/
def Number.Valid : Number → Prop
  | .int n => -2 ^ 63 ≤ n ∧ n < 2 ^ 64
  | .float b => b.isFinite = true ∧ Binary.double.Has b

/-- Values whose numbers satisfy a property, with the fields of each object in their order. -/
inductive Over (P : Number → Prop) : Json → Prop where
  | null : Over P .null
  | bool (b : Bool) : Over P (.bool b)
  | number {n : Number} (h : P n) : Over P (.number n)
  | string (s : String) : Over P (.string s)
  | array {items : List Json} (h : ∀ v ∈ items, Over P v) : Over P (.array items)
  | fields {fs : List (String × Json)} (sorted : fs.Pairwise fun f g => f.1 < g.1)
      (h : ∀ f ∈ fs, Over P f.2) : Over P (.fields fs)

mutual

/-- How many arrays and objects are open within each other. -/
def depth : Json → Nat
  | array items => depthItems items + 1
  | fields fs => depthFields fs + 1
  | _ => 0

/-- The depth of the deepest item. -/
def depthItems : List Json → Nat
  | [] => 0
  | v :: rest => max (depth v) (depthItems rest)

/-- The depth of the deepest value of a field. -/
def depthFields : List (String × Json) → Nat
  | [] => 0
  | (_, v) :: rest => max (depth v) (depthFields rest)

end

/-- A number as it comes back. -/
def Number.afresh : Number → Number
  | .int n => .int n
  | .float b => .float ((reread b).getD b)

mutual

/-- A value as it comes back. -/
def afresh : Json → Json
  | number n => number n.afresh
  | array items => array (afreshItems items)
  | fields fs => fields (afreshFields fs)
  | v => v

/-- The items of an array as they come back. -/
def afreshItems : List Json → List Json
  | [] => []
  | v :: rest => afresh v :: afreshItems rest

/-- The fields of an object as they come back. -/
def afreshFields : List (String × Json) → List (String × Json)
  | [] => []
  | (k, v) :: rest => (k, afresh v) :: afreshFields rest

end

theorem renderItems_eq (items : List Json) : renderItems items = items.map render := by
  induction items with
  | nil => rfl
  | cons v rest ih => rw [renderItems, ih, List.map_cons]

theorem renderFields_eq (fs : List (String × Json)) :
    renderFields fs = fs.map fun f => (quoted f.1, render f.2) := by
  induction fs with
  | nil => rfl
  | cons f rest ih => rw [renderFields, ih, List.map_cons]

theorem afreshItems_eq (items : List Json) : afreshItems items = items.map afresh := by
  induction items with
  | nil => rfl
  | cons v rest ih => rw [afreshItems, ih, List.map_cons]

theorem afreshFields_eq (fs : List (String × Json)) :
    afreshFields fs = fs.map fun f => (f.1, afresh f.2) := by
  induction fs with
  | nil => rfl
  | cons f rest ih => rw [afreshFields, ih, List.map_cons]

theorem depthItems_le_iff (items : List Json) (d : Nat) :
    depthItems items ≤ d ↔ ∀ v ∈ items, depth v ≤ d := by
  induction items with
  | nil => simp [depthItems]
  | cons v rest ih => rw [depthItems, Nat.max_le, ih, List.forall_mem_cons]

theorem depthFields_le_iff (fs : List (String × Json)) (d : Nat) :
    depthFields fs ≤ d ↔ ∀ f ∈ fs, depth f.2 ≤ d := by
  induction fs with
  | nil => simp [depthFields]
  | cons f rest ih => rw [depthFields, Nat.max_le, ih, List.forall_mem_cons]

/-- A value whose numbers come back comes back itself. -/
theorem afresh_eq {P : Number → Prop} (hP : ∀ n, P n → n.afresh = n) {v : Json} (h : v.Over P) :
    v.afresh = v := by
  induction h with
  | null => rfl
  | bool b => rfl
  | number h => rw [afresh, hP _ h]
  | string s => rfl
  | array h ih => rw [afresh, afreshItems_eq, List.map_congr_left ih, List.map_id']
  | fields sorted h ih =>
      rw [afresh, afreshFields_eq, List.map_congr_left fun f hf => by rw [ih f hf], List.map_id']

/-- A number that is not short can come back as another one. -/
def Number.Short : Number → Prop
  | .int _ => True
  | .float b => Json.Short b

theorem Number.afresh_of_short {n : Number} (h : n.Valid ∧ n.Short) : n.afresh = n := by
  cases n with
  | int n => rfl
  | float b => rw [afresh, reread_of_short h.1.2 h.2, Option.getD_some]

/-! ### First bytes -/

/-- A number starts with a digit or with its sign. -/
def IsNumberStart (b : UInt8) : Prop := b = ascii '-' ∨ isDigit b = true

theorem IsNumberStart.ne {b : UInt8} (h : IsNumberStart b) {c : UInt8} (h1 : c ≠ ascii '-')
    (h2 : isDigit c = false) : b ≠ c := by
  rintro rfl
  rcases h with h | h
  · exact h1 h
  · rw [h] at h2
    cases h2

theorem IsNumberStart.isSpace {b : UInt8} (h : IsNumberStart b) : isSpace b = false := by
  rcases h with rfl | h
  · decide
  · have hne : ∀ c, Json.isSpace c = true → b ≠ c := by
      rintro c hc rfl
      simp only [Json.isSpace, Bool.or_eq_true, decide_eq_true_eq] at hc
      rcases hc with ((rfl | rfl) | rfl) | rfl <;> exact absurd h (by decide)
    exact Bool.not_eq_true _ ▸ fun hs => hne b hs rfl

/-- What is spelled properly starts like a number. -/
theorem Spelling.Proper.start {s : Spelling} (h : s.Proper) (negative : Bool) :
    ∃ b bs, encode (signText negative ++ s.text) = b :: bs ∧ IsNumberStart b := by
  cases negative with
  | true => exact ⟨ascii '-', encode s.text, rfl, Or.inl rfl⟩
  | false =>
      obtain ⟨c, cs, hc⟩ := List.exists_cons_of_ne_nil h.ne_nil
      have hd : c.isDigit = true := h.whole c (by rw [hc]; exact List.mem_cons_self)
      refine ⟨ascii c, ?_⟩
      have hcons (ds : List Char) : encode (c :: ds) = ascii c :: encode ds := by
        rw [encode_cons, encodeChar_ascii (lt_of_isDigit hd)]
        rfl
      rw [Spelling.text, hc]
      exact ⟨_, hcons _, Or.inr (isDigit_ascii hd).1⟩

theorem Number.Valid.start {n : Number} (h : n.Valid) :
    ∃ b bs, encode n.text = b :: bs ∧ IsNumberStart b := by
  cases n with
  | int n =>
      rw [Number.text, decimal_eq]
      exact (Spelling.proper_ofNat _).start _
  | float b =>
      obtain ⟨s, m, e, rfl, hc⟩ := h.2.of_isFinite h.1
      rw [Number.text, doubleText_finite s hc]
      exact (proper_spelling hc).start s

theorem Number.Valid.starts {n : Number} (h : n.Valid) : Starts n.text := by
  obtain ⟨b, bs, hb, hstart⟩ := h.start
  refine ⟨b, bs, hb, hstart.isSpace, ?_⟩
  rintro c (rfl | rfl)
  · exact hstart.ne (by decide) (by decide)
  · exact hstart.ne (by decide) (by decide)

/-- No value starts with space or with the end of a list. -/
theorem starts_render {v : Json} (h : v.Over Number.Valid) : Starts v.render := by
  cases h with
  | null => exact starts_ascii (by decide) (by decide) (by decide) (by decide) _
  | bool b =>
      cases b
      · exact starts_ascii (by decide) (by decide) (by decide) (by decide) _
      · exact starts_ascii (by decide) (by decide) (by decide) (by decide) _
  | number hn => exact hn.starts
  | string s => exact starts_ascii (by decide) (by decide) (by decide) (by decide) _
  | array _ => exact starts_ascii (by decide) (by decide) (by decide) (by decide) _
  | fields _ _ => exact starts_ascii (by decide) (by decide) (by decide) (by decide) _

/-! ### Scalars -/

theorem value_scalar (d : Nat) {b : UInt8} (hs : isSpace b = false) (h1 : b ≠ ascii '[')
    (h2 : b ≠ 0x7B) (bs : List UInt8) : value d (b :: bs) = scalar (b :: bs) := by
  cases d <;> unfold value <;> rw [skipSpace_cons hs] <;> simp [h1, h2]

/-- A number that a value can have is read as it comes back. -/
theorem numberToken_text {n : Number} (h : n.Valid) {rest : List UInt8} (hr : Ends rest) :
    numberToken (encode n.text ++ rest) = some (n.afresh, rest) := by
  cases n with
  | int n => exact numberToken_decimal h.1 h.2 hr
  | float b =>
      obtain ⟨s, m, e, rfl, hc⟩ := h.2.of_isFinite h.1
      obtain ⟨b, hb⟩ := Option.isSome_iff_exists.mp (isSome_reread s hc)
      rw [Number.text, numberToken_doubleText s hc hr, Number.afresh, hb]
      rfl

theorem scalar_number {b : UInt8} (h : IsNumberStart b) (bs : List UInt8) :
    scalar (b :: bs) = (numberToken (b :: bs)).map fun (n, r) => (.number n, r) := by
  unfold scalar
  rw [skipSpace_cons h.isSpace]
  dsimp only
  rw [if_neg (h.ne (by decide) (by decide)), if_neg (h.ne (by decide) (by decide)),
    if_neg (h.ne (by decide) (by decide)), if_neg (h.ne (by decide) (by decide))]

/-! ### Objects -/

theorem insertField_last {key : String} {value : Json} {fs : List (String × Json)}
    (h : ∀ f ∈ fs, f.1 < key) : insertField key value fs = fs ++ [(key, value)] := by
  induction fs with
  | nil => rfl
  | cons f rest ih =>
      have hf := h f List.mem_cons_self
      rw [insertField, if_neg (not_lt.mpr hf.le), if_neg hf.ne',
        ih fun g hg => h g (List.mem_cons_of_mem _ hg), List.cons_append]

/-- Fields that are in the order of their keys stay as they are. -/
theorem object_of_sorted {fs : List (String × Json)} (h : fs.Pairwise fun f g => f.1 < g.1) :
    object fs = fields fs := by
  have hfold : ∀ acc : List (String × Json), (acc ++ fs).Pairwise (fun f g => f.1 < g.1) →
      fs.foldl (fun acc f => insertField f.1 f.2 acc) acc = acc ++ fs := by
    clear h
    induction fs with
    | nil => simp
    | cons f rest ih =>
        intro acc h
        have hlast := (List.pairwise_append.mp h).2.2
        rw [List.foldl_cons, insertField_last fun g hg => hlast g hg f List.mem_cons_self,
          ih _ (by rw [List.append_assoc]; exact h), List.append_assoc]
        rfl
  exact congrArg fields (hfold [] h)

/-! ### Values -/

theorem mapM_guard {α β : Type} (p : α → Prop) [DecidablePred p] (f : α → β) (vs : List α) :
    (vs.mapM fun v => if p v then some (f v) else none) =
      if ∀ v ∈ vs, p v then some (vs.map f) else none := by
  induction vs with
  | nil => simp
  | cons v vs ih =>
      rw [List.mapM_cons, ih]
      by_cases hv : p v
      · by_cases hvs : ∀ u ∈ vs, p u
        · rw [if_pos hv, if_pos hvs, if_pos (List.forall_mem_cons.mpr ⟨hv, hvs⟩)]
          rfl
        · rw [if_pos hv, if_neg hvs, if_neg fun h => hvs (List.forall_mem_cons.mp h).2]
          rfl
      · rw [if_neg hv, if_neg fun h => hv (List.forall_mem_cons.mp h).1]
        rfl

section

variable {d : Nat}

/-- What reading a value down to some depth gives. -/
def Reads (d : Nat) (v : Json) : Prop :=
  ∀ rest, Ends rest → value d (encode v.render ++ rest) =
    (if v.depth ≤ d then some v.afresh else none).map fun x => (x, rest)

/-- An array is read as its items are, one level further down. -/
theorem reads_array {items : List Json} (hstart : ∀ v ∈ items, Starts v.render)
    (h : ∀ v ∈ items, Reads d v) : Reads (d + 1) (.array items) := by
  intro rest _
  have hread := enclosed_append (o := '[') (by decide) (by decide) (Or.inl rfl) hstart h rest
  have hvalue (bs : List UInt8) : value (d + 1) (ascii '[' :: bs) =
      (arrayOf (value d) (ascii '[' :: bs)).map fun x => (.array x.1, x.2) := rfl
  have hopen : encode (arrayText (items.map render)) ++ rest = ascii '[' ::
      (encode (((items.map render).intersperse [',']).flatten ++ [']']) ++ rest) := rfl
  rw [render, renderItems_eq, depth, afresh, afreshItems_eq, hopen, hvalue, ← hopen, arrayOf,
    arrayText, hread, mapM_guard]
  simp only [Nat.add_le_add_iff_right, depthItems_le_iff]
  split <;> rfl

/-- An object is read as the values of its fields are, one level further down. -/
theorem reads_fields {fs : List (String × Json)} (sorted : fs.Pairwise fun f g => f.1 < g.1)
    (h : ∀ f ∈ fs, Reads d f.2) : Reads (d + 1) (.fields fs) := by
  intro rest _
  have hstart : ∀ f ∈ fs, Starts (quoted f.1) := fun f _ =>
    starts_ascii (by decide) (by decide) (by decide) (by decide) _
  have hread := objectOf_append (fun _ => value d) (u := render)
    (r := fun v => if v.depth ≤ d then some v.afresh else none) hstart
    (fun f _ => stringToken_quoted f.1) (fun f hf => h f hf) rest
  have hvalue (bs : List UInt8) : value (d + 1) (0x7B :: bs) =
      (objectOf stringToken (fun _ => value d) (0x7B :: bs)).map fun x =>
        (object x.1, x.2) := rfl
  have hopen (ts : List (List Char × List Char)) : encode (objectText ts) ++ rest = 0x7B ::
      (encode (((ts.map fun f => f.1 ++ ':' :: f.2).intersperse [',']).flatten ++ ['\x7d']) ++
        rest) := rfl
  have hguard : (fun f : String × Json => (if f.2.depth ≤ d then some f.2.afresh else none).map
      fun x => (f.1, x)) = fun f => if f.2.depth ≤ d then some (f.1, f.2.afresh) else none := by
    funext f
    split <;> rfl
  have hsorted : (fs.map fun f => (f.1, f.2.afresh)).Pairwise fun f g => f.1 < g.1 :=
    List.pairwise_map.mpr sorted
  rw [hguard, mapM_guard] at hread
  rw [render, renderFields_eq, depth, afresh, afreshFields_eq, hopen, hvalue, ← hopen, hread]
  simp only [Nat.add_le_add_iff_right, depthFields_le_iff]
  split
  · simp only [Option.map_some, object_of_sorted hsorted]
  · rfl

/-- What does not open an array or an object is read at any depth. -/
theorem reads_of_scalar {v : Json} {b : UInt8} {bs : List UInt8} (he : encode v.render = b :: bs)
    (hs : isSpace b = false) (h1 : b ≠ ascii '[') (h2 : b ≠ 0x7B) (h0 : v.depth = 0)
    (h : ∀ rest, Ends rest → scalar (encode v.render ++ rest) = some (v.afresh, rest)) (d : Nat) :
    Reads d v := by
  intro rest hr
  have hscalar := h rest hr
  rw [he, List.cons_append] at hscalar ⊢
  rw [value_scalar d hs h1 h2, hscalar, h0, if_pos (Nat.zero_le d)]
  rfl

end

/-- **Values.**  A value is read if and only if it is no deeper than the reader goes. -/
theorem value_render {v : Json} (h : v.Over Number.Valid) (d : Nat) : Reads d v := by
  induction h generalizing d with
  | null => exact reads_of_scalar rfl (by decide) (by decide) (by decide) rfl (fun _ _ => rfl) d
  | bool b =>
      cases b
      · exact reads_of_scalar rfl (by decide) (by decide) (by decide) rfl (fun _ _ => rfl) d
      · exact reads_of_scalar rfl (by decide) (by decide) (by decide) rfl (fun _ _ => rfl) d
  | number hn =>
      obtain ⟨b, bs, hb, hstart⟩ := hn.start
      refine reads_of_scalar (v := .number _) hb hstart.isSpace (hstart.ne (by decide) (by decide))
        (hstart.ne (by decide) (by decide)) rfl (fun rest hr => ?_) d
      have hread := numberToken_text hn hr
      rw [hb, List.cons_append] at hread
      rw [render, hb, List.cons_append, scalar_number hstart, hread]
      rfl
  | string s =>
      refine reads_of_scalar rfl (by decide) (by decide) (by decide) rfl (fun rest _ => ?_) d
      have hscalar : scalar (encode (quoted s) ++ rest) =
          (stringToken (encode (quoted s) ++ rest)).map fun x => (.string x.1, x.2) := rfl
      rw [render, hscalar, stringToken_quoted]
      rfl
  | array h ih =>
      cases d with
      | zero => exact fun _ _ => rfl
      | succ d => exact reads_array (fun v hv => starts_render (h v hv)) fun v hv => ih v hv d
  | fields sorted _ ih =>
      cases d with
      | zero => exact fun _ _ => rfl
      | succ d => exact reads_fields sorted fun f hf => ih f hf d

end ReadThrough.Json
