import Std.Data.ExtTreeMap.Lemmas
import ReadThrough.Json.Reader

/-! # Forms of JSON

How the values of a type are written and read (`Json.Form`).  A form reads more than it writes:
spaces, escapes and the order of fields are free, and of equal keys the last one counts. -/

namespace ReadThrough.Json

/-- A way to write and read the values of a type. -/
structure Form (α : Type) where
  write : α → List Char
  read : Reader α

namespace Form

/-- Any value. -/
def any : Form Json := ⟨render, value maxDepth⟩

/-- Text. -/
def text : Form String := ⟨quoted, stringToken⟩

/-- Read a number after space. -/
def numeral : Reader Number := fun bs => numberToken (skipSpace bs)

/-- Read an integer between two bounds. -/
def intWithin (lo hi : Int) : Reader Int := fun bs => do
  match ← numeral bs with
  | (.int n, rest) => if lo ≤ n ∧ n ≤ hi then some (n, rest) else none
  | (.float _, _) => none

/-- Unsigned 64-bit integers. -/
def unsigned : Form UInt64 where
  write n := Text.decimal n.toNat
  read bs := (intWithin 0 (UInt64.size - 1) bs).map fun (n, r) => (UInt64.ofNat n.toNat, r)

/-- Signed 64-bit integers. -/
def signed : Form Int64 where
  write n := Text.decimal n.toInt
  read bs :=
    (intWithin Int64.minValue.toInt Int64.maxValue.toInt bs).map fun (n, r) => (Int64.ofInt n, r)

/-- Bytes as numbers. -/
def octet : Form UInt8 where
  write n := Text.decimal n.toNat
  read bs := (intWithin 0 255 bs).map fun (n, r) => (UInt8.ofNat n.toNat, r)

/-- The floating-point number of a number. -/
def Number.toDouble : Number → Binary
  | .int n => Binary.double.ofInt n
  | .float b => b

/-- 64-bit floating-point numbers. -/
def double : Form Binary where
  write := doubleText
  read bs := (numeral bs).map fun (n, r) => (Number.toDouble n, r)

/-- The 32-bit number nearest to a number. -/
def Number.toSingle : Number → Binary
  | .int n => Binary.single.ofInt n
  | .float b => Binary.single.convert b

/-- 32-bit floating-point numbers. -/
def single : Form Binary where
  write := singleText
  read bs := (numeral bs).map fun (n, r) => (Number.toSingle n, r)

/-- Truth values. -/
def truth : Form Bool where
  write := boolText
  read bs := do
    match ← scalar bs with
    | (.bool b, rest) => some (b, rest)
    | _ => none

/-- Read the word for nothing. -/
def nothing : Reader Unit := fun bs =>
  match skipSpace bs with
  | b :: rest => if b = ascii 'n' then word [0x75, 0x6C, 0x6C] rest else none
  | [] => none

/-- The value that says nothing. -/
def unit : Form Unit := ⟨fun _ => ['n', 'u', 'l', 'l'], nothing⟩

/-- A value or nothing. -/
def option {α : Type} (f : Form α) : Form (Option α) where
  write
    | none => ['n', 'u', 'l', 'l']
    | some v => f.write v
  read bs :=
    if (skipSpace bs).head? = some (ascii 'n') then (nothing bs).map fun (_, r) => (none, r)
    else (f.read bs).map fun (v, r) => (some v, r)

/-- Lists. -/
def list {α : Type} (f : Form α) : Form (List α) where
  write vs := arrayText (vs.map f.write)
  read := arrayOf f.read

/-- Maps from text, in the order of the keys. -/
def textMap {α : Type} (f : Form α) : Form (Std.ExtTreeMap String α) where
  write m := objectText (m.toList.map fun (k, v) => (quoted k, f.write v))
  read bs := (objectOf stringToken (fun _ => f.read) bs).map fun (fs, r) =>
    (fs.foldl (fun m (k, v) => m.insert k v) ∅, r)

/-- Read a quoted integer without space or escapes. -/
def intKey : Reader Int64 := fun bs => do
  let ((), rest) ← byte (ascii '"') bs
  match rest with
  | [] => none
  | b :: _ =>
    if isSpace b then none
    else
      let (n, rest) ← signed.read rest
      match rest with
      | c :: rest => if c = ascii '"' then some (n, rest) else none
      | [] => none

/-- Maps from integers, in the order of the keys. -/
def intMap {α : Type} (f : Form α) : Form (Std.ExtTreeMap Int64 α) where
  write m :=
    objectText (m.toList.map fun (k, v) => ('"' :: (Text.decimal k.toInt ++ ['"']), f.write v))
  read bs := (objectOf intKey (fun _ => f.read) bs).map fun (fs, r) =>
    (fs.foldl (fun m (k, v) => m.insert k v) ∅, r)

/-! ### Records -/

/-- A record of two fields. -/
structure Measurement where
  pixels : UInt64
  percent : Binary
deriving DecidableEq, Repr

/-- What a field of a record holds. -/
inductive Part where
  | pixels (n : UInt64)
  | percent (x : Binary)
  | unknown
deriving DecidableEq, Repr

/-- Read the value of a field; fields with other names are passed. -/
def part (fuel : Nat) (name : String) : Reader Part := fun bs =>
  if name = "pixels" then (unsigned.read bs).map fun (n, r) => (.pixels n, r)
  else if name = "percent" then (single.read bs).map fun (x, r) => (.percent x, r)
  else (skip fuel bs).map fun (_, r) => (.unknown, r)

/-- The record of its fields: each of the two exactly once. -/
def assemble (parts : List Part) : Option Measurement :=
  let pixels := parts.filterMap fun | .pixels n => some n | _ => none
  let percent := parts.filterMap fun | .percent x => some x | _ => none
  match pixels, percent with
  | [n], [x] => some ⟨n, x⟩
  | _, _ => none

/-- Read the record from an array of its two values. -/
def measurementArray : Reader Measurement := fun bs => do
  let ((), rest) ← byte (ascii '[') bs
  let (n, rest) ← unsigned.read rest
  let ((), rest) ← byte (ascii ',') rest
  let (x, rest) ← single.read rest
  let ((), rest) ← byte (ascii ']') rest
  some (⟨n, x⟩, rest)

/-- Records of two fields, written as an object, read from an object or an array. -/
def measurement : Form Measurement where
  write m := objectText
    [(quoted "pixels", unsigned.write m.pixels), (quoted "percent", single.write m.percent)]
  read bs :=
    if (skipSpace bs).head? = some (ascii '[') then measurementArray bs
    else do
      let (fs, rest) ← objectOf stringToken (part bs.length) bs
      let m ← assemble (fs.map (·.2))
      some (m, rest)

end Form

end ReadThrough.Json
