/-! # TOML documents of plain values

The part of TOML that a settings file can use: lines `key = value` in which the value is text or an
integer of 64 bits.  `Toml.parse?` accepts exactly the documents of that kind that are well formed;
tables, arrays, dates, floats and truth values are not of that kind.

* **Space.**  Blanks and tabs separate tokens of a line, a comment runs up to the end of its line,
  and lines end with a line feed that a carriage return may precede.
* **Text.**  Basic and literal strings, each on one line or on several.
* **Integers.**  Decimal with a sign, or in base sixteen, eight or two without one; underscores may
  stand between digits. -/

namespace ReadThrough.Toml

/-- A value of a document. -/
inductive Value where
  | text (s : String)
  | int (n : Int)
deriving DecidableEq, Repr

/-- What reads something off the start of a text. -/
abbrev Reader (α : Type) := List Char → Option (α × List Char)

/-- Blanks and tabs. -/
def isBlank (c : Char) : Bool := c = ' ' || c = '\t'

/-- The text after leading blanks. -/
def skipBlanks (cs : List Char) : List Char := cs.dropWhile isBlank

/-- Characters that may stand in comments and strings: tabs and everything but controls. -/
def isPlain (c : Char) : Bool := c = '\t' || (0x20 ≤ c.toNat && c.toNat ≠ 0x7F)

/-- The text after the end of a line, if it starts with one. -/
def newline? : List Char → Option (List Char)
  | '\n' :: rest => some rest
  | '\r' :: '\n' :: rest => some rest
  | _ => none

/-- The text after a line end, if there is one. -/
def skipNewline (cs : List Char) : List Char := (newline? cs).getD cs

/-- The text after a comment, if there is one. -/
def skipComment : List Char → List Char
  | '#' :: rest => rest.dropWhile isPlain
  | cs => cs

/-! ### Strings -/

/-- The character of some digits of base sixteen. -/
def hexChar? (ds : List Char) : Option Char :=
  let value := ds.foldl (fun n? d => do
    let n ← n?
    if d.isDigit then some (n * 16 + (d.toNat - 48))
    else if 'a' ≤ d ∧ d ≤ 'f' then some (n * 16 + (d.toNat - 87))
    else if 'A' ≤ d ∧ d ≤ 'F' then some (n * 16 + (d.toNat - 55))
    else none) (some 0)
  value.bind fun n => if n.isValidChar then some (Char.ofNat n) else none

/-- The character of an escape of one letter. -/
def escaped? : Char → Option Char
  | 'b' => some '\x08'
  | 't' => some '\t'
  | 'n' => some '\n'
  | 'f' => some '\x0c'
  | 'r' => some '\r'
  | '"' => some '"'
  | '\\' => some '\\'
  | _ => none

/-- Put a character in front of what was read. -/
def before (c : Char) (r : Option (List Char × List Char)) : Option (List Char × List Char) :=
  r.map fun (s, rest) => (c :: s, rest)

/-- Read a basic string up to its closing quote. -/
def basicBody (cs : List Char) : Option (List Char × List Char) :=
  match cs with
  | [] => none
  | '"' :: rest => some ([], rest)
  | '\\' :: 'u' :: a :: b :: c :: d :: rest =>
    match hexChar? [a, b, c, d] with
    | some x => before x (basicBody rest)
    | none => none
  | '\\' :: 'U' :: a :: b :: c :: d :: e :: f :: g :: h :: rest =>
    match hexChar? [a, b, c, d, e, f, g, h] with
    | some x => before x (basicBody rest)
    | none => none
  | '\\' :: e :: rest =>
    match escaped? e with
    | some x => before x (basicBody rest)
    | none => none
  | c :: rest => if isPlain c ∧ c ≠ '\\' then before c (basicBody rest) else none

/-- Read a literal string up to its closing quote. -/
def literalBody : List Char → Option (List Char × List Char)
  | [] => none
  | c :: rest =>
    if c = '\'' then some ([], rest)
    else if isPlain c then before c (literalBody rest)
    else none

/-- What a run of quotes inside a string of several lines means: how many of them belong to the
text, and whether the string ends. -/
def quoteRun (n : Nat) : Nat × Bool := if n < 3 then (n, false) else (min (n - 3) 2, true)

/-- Drop blanks and line ends. -/
def dropSpace : Nat → List Char → List Char
  | 0, cs => cs
  | n + 1, cs =>
    match newline? cs with
    | some rest => dropSpace n rest
    | none =>
      match cs with
      | c :: rest => if isBlank c then dropSpace n rest else cs
      | [] => []

/-- The rest after a backslash at the end of a line: the line end and all space after it. -/
def foldedLine? (cs : List Char) : Option (List Char) :=
  (newline? (skipBlanks cs)).map fun rest => dropSpace rest.length rest

/-- Read a basic string of several lines up to its closing quotes. -/
def basicLines : Nat → List Char → Option (List Char × List Char)
  | 0, _ => none
  | fuel + 1, cs =>
    match cs with
    | [] => none
    | '"' :: _ =>
      let run := (cs.takeWhile (· == '"')).length
      let (kept, ends) := quoteRun run
      if ends then some (List.replicate kept '"', cs.drop (kept + 3))
      else
        (basicLines fuel (cs.drop run)).map fun (s, rest) => (List.replicate kept '"' ++ s, rest)
    | '\\' :: 'u' :: a :: b :: c :: d :: rest =>
      match hexChar? [a, b, c, d] with
      | some x => before x (basicLines fuel rest)
      | none => none
    | '\\' :: 'U' :: a :: b :: c :: d :: e :: f :: g :: h :: rest =>
      match hexChar? [a, b, c, d, e, f, g, h] with
      | some x => before x (basicLines fuel rest)
      | none => none
    | '\\' :: rest =>
      match foldedLine? rest with
      | some rest => basicLines fuel rest
      | none =>
        match rest with
        | e :: rest =>
          match escaped? e with
          | some x => before x (basicLines fuel rest)
          | none => none
        | [] => none
    | c :: rest =>
      match newline? cs with
      | some rest => before '\n' (basicLines fuel rest)
      | none => if isPlain c then before c (basicLines fuel rest) else none

/-- Read a literal string of several lines up to its closing quotes. -/
def literalLines : Nat → List Char → Option (List Char × List Char)
  | 0, _ => none
  | fuel + 1, cs =>
    match cs with
    | [] => none
    | '\'' :: _ =>
      let run := (cs.takeWhile (· == '\'')).length
      let (kept, ends) := quoteRun run
      if ends then some (List.replicate kept '\'', cs.drop (kept + 3))
      else
        (literalLines fuel (cs.drop run)).map fun (s, rest) =>
          (List.replicate kept '\'' ++ s, rest)
    | c :: rest =>
      match newline? cs with
      | some rest => before '\n' (literalLines fuel rest)
      | none => if isPlain c then before c (literalLines fuel rest) else none

/-- Read a string of any kind. -/
def string : Reader String := fun cs =>
  let asString := Option.map fun (s, rest) => (String.ofList s, rest)
  match cs with
  | '"' :: '"' :: '"' :: rest => asString (basicLines (rest.length + 1) (skipNewline rest))
  | '\'' :: '\'' :: '\'' :: rest => asString (literalLines (rest.length + 1) (skipNewline rest))
  | '"' :: rest => asString (basicBody rest)
  | '\'' :: rest => asString (literalBody rest)
  | _ => none

/-! ### Integers -/

/-- The value of a digit of some base. -/
def digit? (base : Nat) (c : Char) : Option Nat :=
  let n? := if c.isDigit then some (c.toNat - 48)
    else if 'a' ≤ c ∧ c ≤ 'f' then some (c.toNat - 87)
    else if 'A' ≤ c ∧ c ≤ 'F' then some (c.toNat - 55)
    else none
  n?.filter (· < base)

/-- Read the digits after the first one; underscores may stand between digits. -/
def moreDigits (base n : Nat) : List Char → Nat × List Char
  | '_' :: c :: rest =>
    match digit? base c with
    | some d => moreDigits base (n * base + d) rest
    | none => (n, '_' :: c :: rest)
  | c :: rest =>
    match digit? base c with
    | some d => moreDigits base (n * base + d) rest
    | none => (n, c :: rest)
  | [] => (n, [])

/-- Read digits of some base. -/
def digits (base : Nat) : Reader Nat
  | c :: rest => (digit? base c).map fun d => moreDigits base d rest
  | [] => none

/-- Read decimal digits without a leading zero. -/
def decimal : Reader Nat := fun cs =>
  match cs with
  | '0' :: rest => some (0, rest)
  | cs => digits 10 cs

/-- Read an integer of 64 bits. -/
def integer : Reader Int := fun cs => do
  let (n, rest) ← match cs with
    | '0' :: 'x' :: rest => (digits 16 rest).map fun (n, r) => ((n : Int), r)
    | '0' :: 'o' :: rest => (digits 8 rest).map fun (n, r) => ((n : Int), r)
    | '0' :: 'b' :: rest => (digits 2 rest).map fun (n, r) => ((n : Int), r)
    | '-' :: rest => (decimal rest).map fun (n, r) => (-(n : Int), r)
    | '+' :: rest => (decimal rest).map fun (n, r) => ((n : Int), r)
    | cs => (decimal cs).map fun (n, r) => ((n : Int), r)
  if Int64.minValue.toInt ≤ n ∧ n ≤ Int64.maxValue.toInt then some (n, rest) else none

/-! ### Lines -/

/-- Letters, digits, underscores and hyphens need no quotes in a key. -/
def isBare (c : Char) : Bool := c.isAlphanum || c = '_' || c = '-'

/-- Read a key. -/
def key : Reader String := fun cs =>
  match cs with
  | '"' :: rest => (basicBody rest).map fun (s, r) => (String.ofList s, r)
  | '\'' :: rest => (literalBody rest).map fun (s, r) => (String.ofList s, r)
  | cs =>
    match cs.takeWhile isBare with
    | [] => none
    | name => some (String.ofList name, cs.dropWhile isBare)

/-- Read a value. -/
def value : Reader Value := fun cs =>
  match cs with
  | '"' :: _ => (string cs).map fun (s, r) => (.text s, r)
  | '\'' :: _ => (string cs).map fun (s, r) => (.text s, r)
  | cs => (integer cs).map fun (n, r) => (.int n, r)

/-- Read a key and its value. -/
def entry : Reader (String × Value) := fun cs => do
  let (k, rest) ← key cs
  match skipBlanks rest with
  | '=' :: rest =>
    let (v, rest) ← value (skipBlanks rest)
    some ((k, v), rest)
  | _ => none

/-- Read the lines of a document. -/
def lines : Nat → List Char → Option (List (String × Value))
  | 0, _ => none
  | fuel + 1, cs => do
    let cs := skipBlanks cs
    let (found, rest) ← match cs with
      | [] => some ([], [])
      | '#' :: _ => some ([], cs)
      | c :: _ =>
        if (newline? cs).isSome then some ([], cs)
        else if c = '[' then none
        else (entry cs).map fun (e, r) => ([e], r)
    let rest := skipComment (skipBlanks rest)
    match rest with
    | [] => some found
    | _ => (newline? rest).bind fun rest => (lines fuel rest).map (found ++ ·)

/-- The entries of a document in the order in which they stand; a key stands only once. -/
def parse? (text : String) : Option (List (String × Value)) := do
  let cs := match text.toList with
    | '\ufeff' :: rest => rest
    | cs => cs
  let entries ← lines (cs.length + 1) cs
  if (entries.map (·.1)).Nodup then some entries else none

end ReadThrough.Toml
