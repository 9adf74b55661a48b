import ReadThrough.Proofs.Json.Numerals

/-! # Lists of JSON

Arrays and objects are lists between two marks.

* **Lists** (`Json.enclosed_append`).  Whatever the items are, a list is read off its text as its
  items are: one item after the other, and not at all if one of them is not read.
* **Objects** (`Json.objectOf_append`).  An object is a list of fields, and a field is read as its
  value is, whatever the key, as long as the key is read. -/

namespace ReadThrough.Json

open Utf8

theorem skipSpace_cons {b : UInt8} (h : isSpace b = false) (bs : List UInt8) :
    skipSpace (b :: bs) = b :: bs :=
  List.dropWhile_cons_of_neg (by simp [h])

theorem byte_cons {b : UInt8} (h : isSpace b = false) (rest : List UInt8) :
    byte b (b :: rest) = some ((), rest) := by
  unfold byte
  rw [skipSpace_cons h]
  simp

/-- The characters that end a list. -/
def Closes (c : Char) : Prop := c = ']' ∨ c = '\x7d'

theorem Closes.ascii {c : Char} (h : Closes c) :
    c.toNat < 128 ∧ isSpace (ascii c) = false ∧ isDigit (ascii c) = false ∧ ascii c ≠ ascii '.' ∧
      ascii c ≠ ascii 'e' ∧ ascii c ≠ ascii 'E' := by
  rcases h with rfl | rfl <;> decide

/-- A text that does not start with space or the end of a list. -/
def Starts (t : List Char) : Prop :=
  ∃ b bs, encode t = b :: bs ∧ isSpace b = false ∧ ∀ c, Closes c → b ≠ ascii c

theorem starts_ascii {c : Char} (hc : c.toNat < 128) (hs : isSpace (ascii c) = false)
    (h1 : ascii c ≠ ascii ']') (h2 : ascii c ≠ ascii '\x7d') (cs : List Char) :
    Starts (c :: cs) := by
  refine ⟨ascii c, encode cs, ?_, hs, ?_⟩
  · rw [encode_cons, encodeChar_ascii hc]
    rfl
  · rintro d (rfl | rfl)
    · exact h1
    · exact h2

/-- What follows a text does not matter for its start. -/
theorem Starts.append {t : List Char} (h : Starts t) (u : List Char) : Starts (t ++ u) := by
  obtain ⟨b, bs, hb, hs, hc⟩ := h
  exact ⟨b, bs ++ encode u, by rw [encode_append, hb, List.cons_append], hs, hc⟩

/-- What follows the first item of a list. -/
def listTail (c : Char) (ts : List (List Char)) : List Char := ts.flatMap (',' :: ·) ++ [c]

/-- A list with items starts with the first one. -/
theorem enclose_cons (o c : Char) (t : List Char) (ts : List (List Char)) :
    enclose o c (t :: ts) = o :: (t ++ listTail c ts) := by
  have hflat : ∀ t : List Char,
      ((t :: ts).intersperse [',']).flatten = t ++ ts.flatMap (',' :: ·) := by
    induction ts with
    | nil => simp
    | cons u us ih =>
        intro t
        rw [List.intersperse_cons_cons, List.flatten_cons, List.flatten_cons, ih u,
          List.flatMap_cons]
        rfl
  rw [enclose, hflat, listTail, List.append_assoc]

section

variable {α β : Type} {c : Char} {item : Reader β} {w : α → List Char} {r : α → Option β}

theorem encode_listTail_nil (hc : Closes c) : encode (listTail c []) = [ascii c] := by
  show encode [c] = _
  rw [encode_cons, encodeChar_ascii hc.ascii.1]
  rfl

theorem encode_listTail_cons (t : List Char) (ts : List (List Char)) :
    encode (listTail c (t :: ts)) = ascii ',' :: (encode t ++ encode (listTail c ts)) := by
  rw [listTail, List.flatMap_cons, List.append_assoc, List.cons_append, encode_cons, encode_append]
  rfl

/-- An item ends where the next one or the end of the list begins. -/
theorem ends_listTail (hc : Closes c) (ts : List (List Char)) (rest : List UInt8) :
    Ends (encode (listTail c ts) ++ rest) := by
  intro b hb
  cases ts with
  | nil =>
      rw [encode_listTail_nil hc] at hb
      obtain rfl := Option.some.inj hb
      exact hc.ascii.2.2
  | cons t ts =>
      rw [encode_listTail_cons] at hb
      obtain rfl := Option.some.inj hb
      decide

/-- There are at least as many bytes as items. -/
theorem length_listTail (hc : Closes c) (ts : List (List Char)) :
    ts.length < (encode (listTail c ts)).length := by
  induction ts with
  | nil =>
      rw [encode_listTail_nil hc]
      exact Nat.one_pos
  | cons t ts ih =>
      rw [encode_listTail_cons, List.length_cons, List.length_cons, List.length_append]
      omega

/-- The items after the first one. -/
theorem moreItems_append (hc : Closes c) {vs : List α}
    (hitem : ∀ v ∈ vs, ∀ rest, Ends rest →
      item (encode (w v) ++ rest) = (r v).map fun x => (x, rest))
    (fuel : Nat) (hf : vs.length < fuel) (rest : List UInt8) :
    moreItems (ascii c) item fuel (encode (listTail c (vs.map w)) ++ rest) =
      (vs.mapM r).map fun xs => (xs, rest) := by
  obtain ⟨fuel, rfl⟩ := Nat.exists_eq_succ_of_ne_zero (Nat.ne_of_gt (Nat.zero_lt_of_lt hf))
  induction vs generalizing fuel with
  | nil =>
      rw [List.map_nil, encode_listTail_nil hc, List.singleton_append]
      unfold moreItems
      rw [skipSpace_cons hc.ascii.2.1]
      simp
  | cons v vs ih =>
      have hcomma : ascii ',' ≠ ascii c := by rcases hc with rfl | rfl <;> decide
      rw [List.map_cons, encode_listTail_cons, List.cons_append, List.append_assoc]
      unfold moreItems
      rw [skipSpace_cons (by decide)]
      dsimp only
      rw [if_neg hcomma, if_pos rfl,
        hitem v List.mem_cons_self _ (ends_listTail hc (vs.map w) rest), List.mapM_cons]
      cases hv : r v with
      | none => rfl
      | some x =>
          obtain ⟨fuel, rfl⟩ : ∃ k, fuel = k + 1 :=
            Nat.exists_eq_succ_of_ne_zero (by rw [List.length_cons] at hf; omega)
          simp only [Option.map_some, Option.bind_eq_bind, Option.bind_some]
          rw [ih (fun u hu => hitem u (List.mem_cons_of_mem _ hu)) fuel
            (by rw [List.length_cons] at hf; omega)]
          cases vs.mapM r <;> rfl

/-- **Lists.**  The items of a list are read one after the other. -/
theorem enclosed_append {o : Char} (ho : o.toNat < 128) (hs : isSpace (ascii o) = false)
    (hc : Closes c) {vs : List α} (hstart : ∀ v ∈ vs, Starts (w v))
    (hitem : ∀ v ∈ vs, ∀ rest, Ends rest →
      item (encode (w v) ++ rest) = (r v).map fun x => (x, rest)) (rest : List UInt8) :
    enclosed (ascii o) (ascii c) item (encode (enclose o c (vs.map w)) ++ rest) =
      (vs.mapM r).map fun xs => (xs, rest) := by
  have hopen (t : List Char) : encode (o :: t) = ascii o :: encode t := by
    rw [encode_cons, encodeChar_ascii ho]
    rfl
  cases vs with
  | nil =>
      show enclosed (ascii o) (ascii c) item (encode (o :: [c]) ++ rest) = _
      have hclose : encode [c] = [ascii c] := encode_listTail_nil hc
      rw [hopen, hclose]
      unfold enclosed
      rw [List.cons_append, byte_cons hs]
      simp only [Option.bind_eq_bind, Option.bind_some, List.singleton_append]
      rw [skipSpace_cons hc.ascii.2.1]
      simp
  | cons v vs =>
      obtain ⟨b, bs, hb, hspace, hne⟩ := hstart v List.mem_cons_self
      have hv := hitem v List.mem_cons_self _ (ends_listTail hc (vs.map w) rest)
      have hlen : vs.length < (encode (enclose o c ((v :: vs).map w)) ++ rest).length := by
        have hlen := length_listTail hc (vs.map w)
        rw [List.map_cons, enclose_cons, hopen, encode_append]
        simp only [List.length_cons, List.length_append, List.length_map] at hlen ⊢
        omega
      have hmore :=
        moreItems_append hc (fun u hu => hitem u (List.mem_cons_of_mem _ hu)) _ hlen rest
      unfold enclosed
      rw [List.map_cons, enclose_cons] at hmore ⊢
      rw [hopen, encode_append, List.cons_append, List.append_assoc] at hmore ⊢
      rw [byte_cons hs]
      simp only [Option.bind_eq_bind, Option.bind_some]
      rw [List.mapM_cons]
      have hskip : skipSpace (encode (w v) ++ (encode (listTail c (vs.map w)) ++ rest)) =
          b :: (bs ++ (encode (listTail c (vs.map w)) ++ rest)) := by
        rw [hb, List.cons_append, skipSpace_cons hspace]
      rw [hskip]
      dsimp only
      rw [if_neg (hne c hc), hv]
      cases r v with
      | none => rfl
      | some x =>
          simp only [Option.map_some, Option.bind_some, hmore]
          cases vs.mapM r <;> rfl

end

/-! ### Objects -/

section

variable {κ α β : Type} {key : Reader κ} {w : κ → List Char} {u : α → List Char}
  {r : α → Option β}

/-- A field is read as its value is. -/
theorem field_append {value : κ → Reader β} {k : κ} {v : α}
    (hk : ∀ rest, key (encode (w k) ++ rest) = some (k, rest)) {rest : List UInt8}
    (hv : value k (encode (u v) ++ rest) = (r v).map fun x => (x, rest)) :
    field key value (encode (w k ++ ':' :: u v) ++ rest) =
      ((r v).map fun x => (k, x)).map fun f => (f, rest) := by
  have hcolon : byte (ascii ':') (encode (':' :: u v) ++ rest) = some ((), encode (u v) ++ rest) :=
    byte_cons (by decide) _
  unfold field
  rw [encode_append, List.append_assoc, hk]
  simp only [Option.bind_eq_bind, Option.bind_some, hcolon, hv]
  cases r v <;> rfl

/-- **Objects.**  The fields of an object are read one after the other. -/
theorem objectOf_append (value : κ → Reader β) {fs : List (κ × α)}
    (hstart : ∀ f ∈ fs, Starts (w f.1))
    (hkey : ∀ f ∈ fs, ∀ rest, key (encode (w f.1) ++ rest) = some (f.1, rest))
    (hvalue : ∀ f ∈ fs, ∀ rest, Ends rest →
      value f.1 (encode (u f.2) ++ rest) = (r f.2).map fun x => (x, rest)) (rest : List UInt8) :
    objectOf key value (encode (objectText (fs.map fun f => (w f.1, u f.2))) ++ rest) =
      (fs.mapM fun f => (r f.2).map fun x => (f.1, x)).map fun xs => (xs, rest) := by
  have hentries : objectText (fs.map fun f => (w f.1, u f.2)) =
      enclose '\x7b' '\x7d' (fs.map fun f => w f.1 ++ ':' :: u f.2) := by
    rw [objectText, List.map_map]
    rfl
  rw [hentries]
  exact enclosed_append (o := '\x7b') (by decide) (by decide) (Or.inr rfl)
    (fun f hf => (hstart f hf).append _)
    (fun f hf rest hr => field_append (hkey f hf) (hvalue f hf rest hr)) rest

end

end ReadThrough.Json
