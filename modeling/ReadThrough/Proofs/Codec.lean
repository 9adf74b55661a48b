import ReadThrough.Codec
import ReadThrough.Proofs.Json.Forms

/-! # Codecs

What readers get of a value that is encoded, stored and decoded again (`Codec.readBack`).  The
codecs through JSON encode everything, but they do not decode everything that they encode.

* **Numbers** (`Codec.readBack_double`).  A number that is not finite is written as a word that is
  not a number.
* **Values** (`Codec.readBack_any`).  A value may be deeper than the reader goes.

What is decoded has its numbers as they are reread, so it is the value itself if these are short.

Where no number is rounded and no depth is limited, nothing is lost (`Codec.faithful_forms`): text,
integers, truth values, and the options, lists and maps of these come back as they were. -/

namespace ReadThrough.Codec

open Json

/-- What readers get of a value: its bytes, decoded. -/
def readBack {α : Type} (c : Codec α) (v : α) : Except Error α := do
  c.decode (← c.encode v)

/-- Something that is read, or an error. -/
def ofRead {α : Type} : Option α → Except Error α
  | some v => .ok v
  | none => .error malformed

theorem readBack_json {α : Type} {f : Form α} {v : α} {x : Option α}
    (h : f.read (Utf8.encode (f.write v)) = x.map fun v => (v, [])) :
    (json f).readBack v = ofRead x := by
  have hwhole : whole f.read (Utf8.encode (f.write v)) = x := by
    unfold whole
    rw [h]
    cases x <;> rfl
  show (match whole f.read (Utf8.encode (f.write v)) with
    | some v => Except.ok v
    | none => .error malformed) = _
  rw [hwhole]
  rfl

/-- **Numbers** are read back as they are reread; nothing is reread that is not finite. -/
theorem readBack_double {b : Binary} (h : Binary.double.Has b) :
    (json Form.double).readBack b = ofRead (reread b) := by
  refine readBack_json ?_
  cases b with
  | nan => decide +kernel
  | infinite s => cases s <;> decide +kernel
  | finite s m e =>
      have hread := numberToken_doubleText s h ends_nil
      obtain ⟨b, bs, hb, hstart⟩ := (proper_spelling h).start s
      rw [← doubleText_finite s h] at hb
      rw [List.append_nil] at hread
      show (numberToken (skipSpace (Utf8.encode (doubleText (.finite s m e))))).map _ = _
      rw [hb, skipSpace_cons hstart.isSpace, ← hb, hread, Option.map_map]
      rfl

/-- **Values** are read back unless they are deeper than the reader goes. -/
theorem readBack_any {v : Json} (h : v.Over Number.Valid) :
    (json Form.any).readBack v = ofRead (if v.depth ≤ maxDepth then some v.afresh else none) := by
  have hread := value_render h maxDepth [] ends_nil
  rw [List.append_nil] at hread
  exact readBack_json hread

/-! ### Faithful codecs -/

/-- A codec that encodes every value and gives it back.  Bytes that it decodes may be spelled in
another way than its own; encoded again, they decode to the same value, and are spelled in a way
that stays. -/
structure Faithful {α : Type} (c : Codec α) : Prop where
  encodes : ∀ v, ∃ bs, c.encode v = .ok bs ∧ c.decode bs = .ok v
  stable : ∀ bs v, c.decode bs = .ok v →
    ∃ bs', c.recode bs = .ok bs' ∧ c.decode bs' = .ok v ∧ c.recode bs' = .ok bs'

theorem faithful_of_encodes {α : Type} {c : Codec α}
    (h : ∀ v, ∃ bs, c.encode v = .ok bs ∧ c.decode bs = .ok v) : c.Faithful := by
  refine ⟨h, fun bs v hv => ?_⟩
  obtain ⟨bs', he, hd⟩ := h v
  have hrecode {bs : Bytes} (hv : c.decode bs = .ok v) : c.recode bs = .ok bs' := by
    unfold recode
    rw [hv]
    exact he
  exact ⟨bs', hrecode hv, hd, hrecode hd⟩

theorem faithful_json {α : Type} {f : Form α} (h : f.Lossless) : (json f).Faithful := by
  refine faithful_of_encodes fun v => ⟨_, rfl, ?_⟩
  have hread := h.reads v [] ends_nil
  rw [List.append_nil] at hread
  exact readBack_json (x := some v) hread

open Form in
/-- **Nothing is lost.**  Text, integers of 64 bits and bytes, truth values, the value that says
nothing, optional integers, lists of text, and maps between text and integers, in full: whatever
the value, it has bytes, and these are decoded to it. -/
theorem faithful_forms :
    (json text).Faithful ∧ (json unsigned).Faithful ∧ (json signed).Faithful ∧
      (json octet).Faithful ∧ (json truth).Faithful ∧ (json unit).Faithful ∧
      (json (option signed)).Faithful ∧ (json (list text)).Faithful ∧
      (json (textMap signed)).Faithful ∧ (json (intMap text)).Faithful := by
  have hoption : (option signed).Lossless := by
    refine lossless_option lossless_signed fun n => ?_
    obtain ⟨b, bs, hb, hstart⟩ := signed_start n
    rw [hb]
    exact fun h => hstart.ne (by decide) (by decide) (Option.some.inj h)
  exact ⟨faithful_json lossless_text, faithful_json lossless_unsigned,
    faithful_json lossless_signed, faithful_json lossless_octet, faithful_json lossless_truth,
    faithful_json lossless_unit, faithful_json hoption, faithful_json (lossless_list lossless_text),
    faithful_json (lossless_textMap lossless_signed), faithful_json (lossless_intMap lossless_text)⟩

end ReadThrough.Codec
