import ReadThrough.Error
import ReadThrough.Json.Form
import ReadThrough.Task

/-! # Codecs

How computed values become stored bytes and come back (`Codec`): through a form of JSON, or as
bytes that stay what they are. -/

namespace ReadThrough

/-- Encoding and decoding of the values of a type. -/
structure Codec (α : Type) where
  encode : α → Except Error Bytes
  decode : Bytes → Except Error α

namespace Codec

/-- The error for bytes that are not what they should be. -/
def malformed : Error := .codec "malformed value"

/-- Values in a form of JSON. -/
def json {α : Type} (f : Json.Form α) : Codec α where
  encode v := .ok (Utf8.encode (f.write v))
  decode bs :=
    match Json.whole f.read bs with
    | some v => .ok v
    | none => .error malformed

/-- Bytes as they are. -/
def bytes : Codec Bytes := ⟨.ok, .ok⟩

/-- A codec that refuses to encode and decodes to the number of bytes. -/
def refusing : Codec Nat := ⟨fun _ => .error (.codec "refusing to encode"), fun bs => .ok bs.length⟩

/-- A table whose keys are pairs of integers. -/
structure PairTable where
  pairs : List ((Int × Int) × Int)

/-- Encoding of a table of pairs: only text can be a key, so a table with entries has no form. -/
def encodePairs (t : PairTable) : Except Error Bytes :=
  if t.pairs.isEmpty then
    .ok (Utf8.encode (Json.objectText [(Json.quoted "pairs", Json.objectText [])]))
  else .error (.codec "key must be a string")

/-- What remains of stored bytes after decoding and encoding them again. -/
def recode {α : Type} (c : Codec α) (bs : Bytes) : Except Error Bytes := do
  c.encode (← c.decode bs)

end Codec

end ReadThrough
