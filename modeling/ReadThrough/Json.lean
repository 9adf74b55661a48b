import ReadThrough.Binary.Shortest
import ReadThrough.Text.Hex
import ReadThrough.Text.Integer

/-! # JSON values

Values of a JSON text and how they are written.

* **Numbers** (`Json.Number`).  An integer from `-2 ^ 63` up to `2 ^ 64 - 1` keeps its value, any
  other number is a 64-bit floating-point number.
* **Objects.**  The fields are in the order of their keys, each key once; `Json.object` brings
  them into that order, the last of equal keys winning.
* **Text** (`Json.render`).  No spaces; only the quote, the backslash and control characters are
  escaped; a number without a decimal text is written `null`. -/

namespace ReadThrough

/-- A number of a JSON text. -/
inductive Json.Number where
  | int (value : Int)
  | float (value : Binary)
deriving DecidableEq, Repr, Inhabited

/-- A JSON value. -/
inductive Json where
  | null
  | bool (value : Bool)
  | number (value : Json.Number)
  | string (value : String)
  | array (items : List Json)
  | fields (fields : List (String × Json))
deriving Repr, Inhabited

namespace Json

/-- Put a field at its place, over an older one of the same key. -/
def insertField (key : String) (value : Json) : List (String × Json) → List (String × Json)
  | [] => [(key, value)]
  | (k, v) :: rest =>
    if key < k then (key, value) :: (k, v) :: rest
    else if key = k then (key, value) :: rest
    else (k, v) :: insertField key value rest

/-- The object with the given fields. -/
def object (fs : List (String × Json)) : Json :=
  fields (fs.foldl (fun acc f => insertField f.1 f.2 acc) [])

/-- A natural number as JSON. -/
def nat (n : Nat) : Json := number (.int n)

/-- An integer as JSON. -/
def int (n : Int) : Json := number (.int n)

/-! ### Text -/

/-- A character inside quotes. -/
def escape (c : Char) : List Char :=
  match c with
  | '"' => ['\\', '"']
  | '\\' => ['\\', '\\']
  | '\x08' => ['\\', 'b']
  | '\x0c' => ['\\', 'f']
  | '\n' => ['\\', 'n']
  | '\r' => ['\\', 'r']
  | '\t' => ['\\', 't']
  | c =>
    if c.toNat < 0x20 then
      ['\\', 'u', '0', '0', Hex.digit (c.toNat / 16), Hex.digit (c.toNat % 16)]
    else [c]

/-- A quoted string. -/
def quoted (s : String) : List Char := '"' :: (s.toList.flatMap escape ++ ['"'])

/-- 64-bit numbers are written positionally from `1e-5` up to, not including, `1e+16`. -/
def doubleLayout : Binary.Layout := ⟨-5, 15, true⟩

/-- 32-bit numbers are written positionally from `1e-6` up to, not including, `1e+13`. -/
def singleLayout : Binary.Layout := ⟨-6, 12, true⟩

/-- The text of a 64-bit number, `null` for one that has none. -/
def doubleText (b : Binary) : List Char :=
  (b.text? Binary.double doubleLayout).getD ['n', 'u', 'l', 'l']

/-- The text of a 32-bit number, `null` for one that has none. -/
def singleText (b : Binary) : List Char :=
  (b.text? Binary.single singleLayout).getD ['n', 'u', 'l', 'l']

/-- The text of a number. -/
def Number.text : Number → List Char
  | .int n => Text.decimal n
  | .float b => doubleText b

/-- The text of a truth value. -/
def boolText : Bool → List Char
  | true => ['t', 'r', 'u', 'e']
  | false => ['f', 'a', 'l', 's', 'e']

/-- Texts between two marks, with commas between them. -/
def enclose (opening closing : Char) (texts : List (List Char)) : List Char :=
  opening :: ((texts.intersperse [',']).flatten ++ [closing])

/-- Items between brackets, given their texts. -/
def arrayText (items : List (List Char)) : List Char := enclose '[' ']' items

/-- Fields between braces, given the texts of keys and values. -/
def objectText (fs : List (List Char × List Char)) : List Char :=
  enclose '\x7b' '\x7d' (fs.map fun f => f.1 ++ ':' :: f.2)

mutual

/-- The text of a value. -/
def render : Json → List Char
  | null => ['n', 'u', 'l', 'l']
  | bool b => boolText b
  | number n => n.text
  | string s => quoted s
  | array items => arrayText (renderItems items)
  | fields fs => objectText (renderFields fs)

/-- The texts of the items of an array. -/
def renderItems : List Json → List (List Char)
  | [] => []
  | v :: rest => render v :: renderItems rest

/-- The texts of the keys and values of an object. -/
def renderFields : List (String × Json) → List (List Char × List Char)
  | [] => []
  | (k, v) :: rest => (quoted k, render v) :: renderFields rest

end

/-- The text of a value as a string. -/
def text (v : Json) : String := String.ofList v.render

/-! ### Access -/

/-- The value of a key. -/
def get? (key : String) : Json → Option Json
  | fields fs => (fs.find? (·.1 == key)).map (·.2)
  | _ => none

/-- The text of a string value. -/
def asString? : Json → Option String
  | string s => some s
  | _ => none

/-- The value of an integer. -/
def asInt? : Json → Option Int
  | number (.int n) => some n
  | _ => none

/-- The value of an integer that is not negative. -/
def asNat? : Json → Option Nat
  | number (.int n) => if 0 ≤ n then some n.toNat else none
  | _ => none

/-- The value of a truth value. -/
def asBool? : Json → Option Bool
  | bool b => some b
  | _ => none

/-- The items of an array. -/
def asArray? : Json → Option (List Json)
  | array items => some items
  | _ => none

end Json

end ReadThrough
