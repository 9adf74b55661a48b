import ReadThrough.Codec
import ReadThrough.Pool
import ReadThrough.Text.Hex

/-! # Scripted computations

Computations that do what a script says, so that a session can be replayed.

* **Acts** (`Act`).  A computation breaks off at once, or sleeps, then waits for a permit of a
  gate, then ends as its `Ending` says.
* **Scripts** (`Script`).  The n-th computation of an id uses the n-th act of its rule, the last
  one again and again; an id without a rule uses the default.
* **Kinds of values** (`ValueKind`).  How a scripted value is encoded, and how stored bytes are
  shown to a caller. -/

namespace ReadThrough.Session

/-- How a scripted computation ends. -/
inductive Ending where
  | fails (message : String)
  | breaks (payload : Option String)
  /-- It returns a value; without one, a text made of priority and id. -/
  | gives (value : Option Json)

/-- What a scripted computation does. -/
structure Act where
  /-- Whether it breaks off before anything else. -/
  early : Bool := false
  delay : Option Duration := none
  gate : Option String := none
  ending : Ending := .gives none

/-- The last word of a computation that breaks off before anything else. -/
def Act.earlyPayload : String := "panicked before the future"

/-- The acts of all ids. -/
structure Script where
  standard : Act := {}
  rules : List (Id × List Act) := []

namespace Script

/-- The act of the computation of an id after `n` earlier ones. -/
def act (s : Script) (id : Id) (n : Nat) : Act :=
  match s.rules.find? (·.1 == id) with
  | none => s.standard
  | some (_, acts) => (acts[min n (acts.length - 1)]?).getD s.standard

end Script

/-- What the values of a cache are. -/
inductive ValueKind where
  | json
  | text
  | number
  | bytes
  /-- Nothing can be encoded. -/
  | refusing
deriving DecidableEq, Repr, Inhabited

namespace ValueKind

/-- Bytes written as text, or as an object with their digits. -/
def bytesOf : Json → Bytes
  | .string s => Utf8.bytes s
  | .fields fs =>
    match (Json.fields fs).get? "hex" with
    | some (.string digits) => (Hex.decode? digits.toList).getD []
    | _ => []
  | _ => []

/-- What comes of a computation that returns a scripted value. -/
def computed (k : ValueKind) (v : Json) : Computed :=
  match k with
  | json => .ofReturned (Codec.json .any).encode v
  | text =>
    .ofReturned (Codec.json .text).encode (match v with | .string s => s | v => v.text)
  | number => .ofReturned (Codec.json .unsigned).encode (UInt64.ofNat (v.asNat?.getD 0))
  | bytes => .ofReturned Codec.bytes.encode (bytesOf v)
  | refusing => .ofReturned Codec.refusing.encode 7

/-- Stored bytes as a caller sees them. -/
def present (k : ValueKind) (bs : Bytes) : Except Error Json :=
  match k with
  | json => (Codec.json .any).decode bs
  | text => ((Codec.json .text).decode bs).map .string
  | number => ((Codec.json .unsigned).decode bs).map fun n => .nat n.toNat
  | bytes => (Codec.bytes.decode bs).map fun b => .string (Hex.text b)
  | refusing => (Codec.refusing.decode bs).map .nat

end ValueKind

/-- The text that a computation returns if its script gives no value. -/
def standardValue (priority : Priority) (id : Id) : Json :=
  .string (Text.decimalText priority ++ ":" ++ id)

/-- What comes of a computation with some ending. -/
def Ending.computed (e : Ending) (k : ValueKind) (priority : Priority) (id : Id) : Computed :=
  match e with
  | fails m => .failed m
  | breaks p => .panicked p
  | gives v => k.computed (v.getD (standardValue priority id))

/-- Where a scripted computation stands. -/
inductive Stage where
  | sleeping (wakeup : Instant)
  /-- Waiting for a permit of a gate. -/
  | atGate (gate : String)
  /-- Nothing keeps it any more. -/
  | ready
deriving DecidableEq, Repr

/-- Where a computation stands after its sleep. -/
def Act.afterSleep (a : Act) : Stage :=
  match a.gate with
  | some g => .atGate g
  | none => .ready

/-- Where a computation stands that begins now; a sleep too long for the clock never ends. -/
def Act.begin (a : Act) (now : Instant) : Stage :=
  if a.early then .ready
  else
    match a.delay with
    | some d => .sleeping (now + d.nanos)
    | none => a.afterSleep

/-- What comes of a computation that nothing keeps any more. -/
def Act.result (a : Act) (k : ValueKind) (priority : Priority) (id : Id) : Computed :=
  if a.early then .panicked (some Act.earlyPayload) else a.ending.computed k priority id

end ReadThrough.Session
