import ReadThrough.Binary.Decimal
import ReadThrough.Keys
import ReadThrough.Wire.Talk

/-! # The remote store

The operations of a store as conversations with a server that keeps it.

* **Changes** (`enqueue`, `dequeue`, `complete`) touch several keys, so each is a script or a
  transaction.
* **Views** (`lookup`, `isFinished`, `queued`, `inProgress`, `pending`) read what is there.
* **Waiting** (`wait`) keeps the server busy on its connection until there is work or the time is
  up, so it takes a connection of its own.

A priority is a score of a sorted set, that is a double; reading it back is exact up to
`Priority.maxExact`. -/

namespace ReadThrough.Wire.Remote

/-- The least and the greatest priority. -/
def priorityRange : Int × Int := (Int64.minValue.toInt, Int64.maxValue.toInt)

/-- The largest number of milliseconds that can be asked for. -/
def maxMillis : Nat := UInt64.size - 1

/-- What an enqueue found, by the number that the script answers. -/
def readEnqueued (id : Id) (reply : Reply) : Except Error Enqueued :=
  reply.signed >>= fun
    | 0 => .ok .queued
    | 1 => .ok .inProgress
    | 2 => .ok .resolved
    | n => .error (.other ("unexpected enqueue reply " ++ Text.decimalText n ++ " for " ++ id))

/-- Queue an id unless it is claimed or finished. -/
def enqueue (k : Keys) (id : Id) (p : Priority) : Talk Enqueued :=
  Talk.script .enqueue [k.queue, k.inProgress, k.value id, k.failure id, k.workReady]
    [id, Text.decimalText p, Keys.marker] (readEnqueued id)

/-- The priority in the text of a score. -/
def readPriority (id : Id) (score : String) : Except Error Priority :=
  match Binary.double.ofText score.toList with
  | .ok b => .ok (b.truncate priorityRange.1 priorityRange.2)
  | .error e =>
    .error (.other ("bad priority " ++ Text.quote score ++ " for " ++ id ++ ": " ++ e.message))

/-- The number of entries left in a text. -/
def readRemaining (remaining : String) : Except Error Nat :=
  match Text.readNat (UInt64.size - 1) remaining.toList with
  | .ok n => .ok n
  | .error e =>
    .error (.other ("bad queue length " ++ Text.quote remaining ++ ": " ++ e.message))

/-- What a claim found: nothing, or an id, its score and the number of entries left. -/
def readClaim (reply : Reply) : Except Error (Option Claim) :=
  reply.texts >>= fun
    | [] => .ok none
    | [id, score, left] => do
      let priority ← readPriority id score
      let remaining ← readRemaining left
      .ok (some { id, priority, remaining })
    | other =>
      .error (.other
        ("unexpected dequeue reply with " ++ Text.decimalText other.length ++ " elements"))

/-- Claim the first queued id. -/
def dequeue (k : Keys) : Talk (Option Claim) :=
  Talk.script .dequeue [k.queue, k.inProgress] [] readClaim

/-- How long a failure is kept, in whole milliseconds: at least one. -/
def ttlMillis (ttl : Duration) : Nat := max 1 (min maxMillis ttl.millis)

/-- The commands that write back how a computation ended. -/
def completing (k : Keys) (id : Id) (c : Completion) : List Command :=
  let record := match c with
    | .value bytes => [.set (k.value id) bytes, .del (k.failure id)]
    | .failure message ttl => [.setFor (k.failure id) (ttlMillis ttl) message, .del (k.value id)]
  record ++ [.removeMember k.inProgress id, .publish k.channel id]

/-- Write back how a computation ended. -/
def complete (k : Keys) (id : Id) (c : Completion) : Talk Unit :=
  Talk.atomic (completing k id c) fun _ => .ok ()

/-- What is stored for an id; a failure comes before a value. -/
def readRecord (reply : Reply) : Except Error Record :=
  (reply.pair Reply.bytes? Reply.text?).map fun
    | (_, some message) => .failure message
    | (some bytes, none) => .value bytes
    | (none, none) => .missing

/-- Look for a record. -/
def lookup (k : Keys) (id : Id) : Talk Record :=
  Talk.atomic [.get (k.value id), .get (k.failure id)] readRecord

/-- Whether there is a record of an id. -/
def isFinished (k : Keys) (id : Id) : Talk Bool :=
  Talk.atomic [.has (k.value id), .has (k.failure id)] fun reply =>
    (reply.pair Reply.truth Reply.truth).map fun (value, failure) => value || failure

/-- Whether a marker was taken, by a list of its key and itself. -/
def readTaken (reply : Reply) : Except Error Bool :=
  match reply with
  | .nothing => .ok false
  | reply => (reply.pair Reply.text Reply.text).map fun _ => true

/-- Take a work-ready marker, or wait for one. -/
def wait (k : Keys) (timeout : Duration) : Talk Bool :=
  Talk.single (.takeFirst k.workReady timeout) readTaken

/-- The first `n` queued ids; nothing is asked for when `n` is zero. -/
def queued (k : Keys) (n : Nat) : Talk (List Id) :=
  if n = 0 then .result (.ok [])
  else Talk.single (.range k.queue 0 (min n Int64.maxValue.toNatClampNeg - 1)) Reply.texts

/-- The claimed ids in order. -/
def inProgress (k : Keys) : Talk (List Id) :=
  Talk.single (.members k.inProgress) fun reply =>
    reply.texts.map fun ids => ids.mergeSort fun a b => decide (a ≤ b)

/-- The number of queued ids. -/
def pending (k : Keys) : Talk Nat := Talk.single (.size k.queue) Reply.count

/-- See whether the server answers at all. -/
def ping : Talk Unit := Talk.single .ping fun reply => reply.text.map fun _ => ()

end ReadThrough.Wire.Remote
