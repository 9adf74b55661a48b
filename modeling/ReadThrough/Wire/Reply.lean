import ReadThrough.Error
import ReadThrough.Task
import ReadThrough.Text.Utf8

/-! # Replies

What a store server answers to a command, and what an answer can be read as.

* **Replies** (`Reply`).  Nothing, an integer, a string of bytes, a status, a refusal, or a list
  of replies.
* **Refusals** (`Refusal`).  A refusal anywhere inside a reply makes the whole reply a failure
  (`Reply.refusal?`).
* **Readings.**  An integer is also read from its decimal text, a text also from an integer, a
  list also from nothing and from a single string.  What cannot be read is worded by
  `Reply.mismatch`. -/

namespace ReadThrough.Wire

/-- An error that the server reports: a code and what it adds to it. -/
structure Refusal where
  code : String
  detail : Option String
deriving DecidableEq, Repr, Inhabited

namespace Refusal

/-- The refusal in an error line: its first word is the code. -/
def ofLine (line : String) : Refusal :=
  let cs := line.toList
  match cs.dropWhile (· != ' ') with
  | [] => ⟨line, none⟩
  | _ :: detail => ⟨String.ofList (cs.takeWhile (· != ' ')), some (String.ofList detail)⟩

/-- The name of the kind of refusal that a general code stands for. -/
def kind? : String → Option String
  | "ERR" => some "ResponseError"
  | "EXECABORT" => some "ExecAbortError"
  | "LOADING" => some "BusyLoadingError"
  | "NOSCRIPT" => some "NoScriptError"
  | "MOVED" => some "Moved"
  | "ASK" => some "Ask"
  | "TRYAGAIN" => some "TryAgain"
  | "CLUSTERDOWN" => some "ClusterDown"
  | "CROSSSLOT" => some "CrossSlot"
  | "MASTERDOWN" => some "MasterDown"
  | "READONLY" => some "ReadOnly"
  | "NOTBUSY" => some "NotBusy"
  | _ => none

/-- The wording of a refusal. -/
def message (r : Refusal) : String :=
  match kind? r.code, r.detail with
  | some kind, some detail => "An error was signalled by the server - " ++ kind ++ ": " ++ detail
  | some kind, none => "An error was signalled by the server- " ++ kind
  | none, some detail => r.code ++ ": " ++ detail
  | none, none => r.code ++ ": Unknown extension error encountered"

/-- Whether the server does not know the script that it was to run. -/
def isUnknownScript (r : Refusal) : Bool := r.code == "NOSCRIPT"

end Refusal

/-- An answer of the server. -/
inductive Reply where
  | nothing
  | integer (value : Int)
  | bulk (bytes : Bytes)
  | status (text : String)
  | refusal (reason : Refusal)
  | list (items : List Reply)
deriving Repr, Inhabited

namespace Reply

mutual

/-- The first refusal inside a reply. -/
def refusal? : Reply → Option Refusal
  | refusal reason => some reason
  | list items => refusalIn? items
  | _ => none

/-- The first refusal inside a list of replies. -/
def refusalIn? : List Reply → Option Refusal
  | [] => none
  | r :: rest => r.refusal? <|> refusalIn? rest

end

/-! ### Wording -/

/-- Items between brackets. -/
def bracketed (items : List String) : String := "[" ++ ", ".intercalate items ++ "]"

mutual

/-- A reply in an error text. -/
def describe : Reply → String
  | nothing => "nil"
  | integer n => "int(" ++ Text.decimalText n ++ ")"
  | bulk bytes =>
    match Utf8.string? bytes with
    | some s => "bulk-string('" ++ Text.quote s ++ "')"
    | none => "binary-data(" ++ bracketed (bytes.map fun b => Text.decimalText b.toNat) ++ ")"
  | status text => if text = "OK" then "ok" else "simple-string(" ++ Text.quote text ++ ")"
  | refusal ⟨code, some detail⟩ => "Server error: `" ++ code ++ ": " ++ detail ++ "`"
  | refusal ⟨code, none⟩ => "Server error: `" ++ code ++ "`"
  | list items => "array(" ++ bracketed (describeAll items) ++ ")"

/-- Replies in an error text. -/
def describeAll : List Reply → List String
  | [] => []
  | r :: rest => r.describe :: describeAll rest

end

/-- The error for a reply that cannot be read. -/
def mismatch (what : String) (r : Reply) : Error :=
  .store ("Response was of incompatible type - TypeError: " ++ Text.quote what
    ++ " (response was " ++ r.describe ++ ")")

/-- The error for bytes that are no text. -/
def notText : Error := .store "Invalid UTF-8- TypeError"

/-! ### Readings -/

/-- The text of bytes. -/
def textOf (bytes : Bytes) : Except Error String :=
  match Utf8.string? bytes with
  | some s => .ok s
  | none => .error notText

/-- An integer, or whatever a decimal text is read as. -/
def number {α : Type} (ofInt : Int → α) (ofText : List Char → Except Text.IntegerProblem α)
    (r : Reply) : Except Error α :=
  let parsed (s : String) : Except Error α :=
    match ofText s.toList with
    | .ok v => .ok v
    | .error _ => .error (mismatch "Could not convert from string." r)
  match r with
  | integer n => .ok (ofInt n)
  | status s =>
    if s = "OK" then .error (mismatch "Response type not convertible to numeric." r)
    else parsed s
  | bulk bytes => textOf bytes >>= parsed
  | _ => .error (mismatch "Response type not convertible to numeric." r)

/-- A reply as a signed 64-bit integer. -/
def signed (r : Reply) : Except Error Int := r.number id (Text.readInt 64)

/-- A reply as a count; a negative integer counts down from `2 ^ 64`. -/
def count (r : Reply) : Except Error Nat :=
  r.number (fun n => (n % UInt64.size).toNat) (Text.readNat (UInt64.size - 1))

/-- A reply as one byte. -/
def octet (r : Reply) : Except Error UInt8 :=
  r.number (fun n => UInt8.ofNat (n % UInt8.size).toNat) fun cs =>
    (Text.readNat (UInt8.size - 1) cs).map UInt8.ofNat

/-- A reply as a text. -/
def text (r : Reply) : Except Error String :=
  match r with
  | bulk bytes => textOf bytes
  | status s => .ok s
  | integer n => .ok (Text.decimalText n)
  | _ => .error (mismatch "Response type not string compatible." r)

/-- A reply as a truth value. -/
def truth (r : Reply) : Except Error Bool :=
  match r with
  | nothing => .ok false
  | integer n => .ok (n != 0)
  | status s =>
    if s = "OK" ∨ s = "1" then .ok true
    else if s = "0" then .ok false
    else .error (mismatch "Response status not valid boolean" r)
  | bulk bytes =>
    if bytes = Utf8.bytes "1" then .ok true
    else if bytes = Utf8.bytes "0" then .ok false
    else .error (mismatch "Response type not bool compatible." r)
  | _ => .error (mismatch "Response type not bool compatible." r)

/-- A reply as a list of texts. -/
def texts (r : Reply) : Except Error (List String) :=
  match r with
  | nothing => .ok []
  | bulk bytes => (textOf bytes).map fun s => [s]
  | list items => items.mapM text
  | _ => .error (mismatch "Response type not vector compatible." r)

/-- A reply as bytes, if there is something. -/
def bytes? (r : Reply) : Except Error (Option Bytes) :=
  match r with
  | nothing => .ok none
  | bulk bytes => .ok (some bytes)
  | list items => (items.mapM octet).map some
  | _ => .error (mismatch "Response type not vector compatible." r)

/-- A reply as a text, if there is something. -/
def text? (r : Reply) : Except Error (Option String) :=
  match r with
  | nothing => .ok none
  | r => r.text.map some

/-- A reply as a list of two, each read in its way. -/
def pair {α β : Type} (f : Reply → Except Error α) (g : Reply → Except Error β) (r : Reply) :
    Except Error (α × β) :=
  match r with
  | list [a, b] => do
    let x ← f a
    let y ← g b
    .ok (x, y)
  | list _ => .error (mismatch "Array response of wrong dimension" r)
  | _ => .error (mismatch "Not a Array response" r)

end Reply

end ReadThrough.Wire
