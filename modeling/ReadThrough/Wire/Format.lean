import ReadThrough.Wire.Command
import ReadThrough.Wire.Reply

/-! # The wire format

Commands and replies as bytes.

* **Writing** (`Command.encode`).  A command is an array of byte strings; each has its length in
  front.
* **Reading** (`Reply.read`).  The first byte tells the kind of a reply.  Bytes that end in the
  middle of a reply are told apart from bytes that can never become one. -/

namespace ReadThrough.Wire

/-- The end of a line. -/
def lineEnd : Bytes := [13, 10]

/-- A command in bytes. -/
def Command.encode (c : Command) : Bytes :=
  let header (mark : Char) (n : Nat) : Bytes := Utf8.encode (mark :: Nat.toDigits 10 n) ++ lineEnd
  header '*' c.words.length ++ c.words.flatMap fun w => header '$' w.length ++ w ++ lineEnd

namespace Reply

/-- What comes of reading bytes. -/
inductive Outcome (α : Type) where
  /-- A value, and the bytes after it. -/
  | found (value : α) (rest : Bytes)
  /-- More bytes are needed. -/
  | partly
  /-- No bytes to come can help. -/
  | malformed
deriving Repr

/-- Go on after a value. -/
def Outcome.andThen {α β : Type} (o : Outcome α) (f : α → Bytes → Outcome β) : Outcome β :=
  match o with
  | .found v rest => f v rest
  | .partly => .partly
  | .malformed => .malformed

/-- A line without its end. -/
def readLine : Bytes → Outcome Bytes
  | [] => .partly
  | 13 :: 10 :: rest => .found [] rest
  | b :: rest => (readLine rest).andThen fun line rest => .found (b :: line) rest

/-- An integer on a line. -/
def readInteger (bs : Bytes) : Outcome Int :=
  (readLine bs).andThen fun line rest =>
    match (Utf8.decode line).map (Text.readInt 64) with
    | some (.ok n) => .found n rest
    | _ => .malformed

/-- A text on a line. -/
def readText (bs : Bytes) : Outcome String :=
  (readLine bs).andThen fun line rest =>
    match Utf8.string? line with
    | some s => .found s rest
    | none => .malformed

/-- A byte string of known length and the line end behind it. -/
def readBulk (length : Nat) (bs : Bytes) : Outcome Bytes :=
  match bs.drop length with
  | 13 :: 10 :: rest => .found (bs.take length) rest
  | _ :: _ :: _ => .malformed
  | _ => .partly

mutual

/-- The reply at the start of some bytes.  The number bounds how deeply lists are nested. -/
def read : Nat → Bytes → Outcome Reply
  | 0, _ => .malformed
  | _, [] => .partly
  | fuel + 1, mark :: bs =>
    match Char.ofNat mark.toNat with
    | '+' => (readText bs).andThen fun s rest => .found (.status s) rest
    | '-' => (readText bs).andThen fun s rest => .found (.refusal (.ofLine s)) rest
    | ':' => (readInteger bs).andThen fun n rest => .found (.integer n) rest
    | '$' =>
      (readInteger bs).andThen fun n rest =>
        if n < 0 then .found .nothing rest
        else (readBulk n.toNat rest).andThen fun bytes rest => .found (.bulk bytes) rest
    | '*' =>
      (readInteger bs).andThen fun n rest =>
        if n < 0 then .found .nothing rest
        else (readItems fuel n.toNat rest).andThen fun items rest => .found (.list items) rest
    | _ => .malformed

/-- The replies at the start of some bytes. -/
def readItems : Nat → Nat → Bytes → Outcome (List Reply)
  | 0, _, _ => .malformed
  | _, 0, bs => .found [] bs
  | fuel + 1, n + 1, bs =>
    (read fuel bs).andThen fun r rest =>
      (readItems fuel n rest).andThen fun more rest => .found (r :: more) rest

end

/-- The reply at the start of some bytes; no reply nests more deeply than it has bytes. -/
def ofBytes (bs : Bytes) : Outcome Reply := read (2 * bs.length + 2) bs

/-- The payload of a message on a subscription. -/
def payload? : Reply → Option Bytes
  | list [bulk kind, _, bulk payload] =>
    if kind = Utf8.bytes "message" then some payload else none
  | _ => none

end Reply

end ReadThrough.Wire
