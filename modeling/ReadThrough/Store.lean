import Std.Data.ExtTreeSet.Lemmas
import ReadThrough.Backlog
import ReadThrough.Error

/-! # The store

The single source of truth shared by all caches: what is queued, what is claimed, what is stored.
Every operation is one atomic step, a function of the store and, where records expire, of the
time.

* **Queues** (`QueueState`).  A backlog, the number of work-ready markers and the claimed ids.
* **Records.**  A value stays; a failure expires.  An expired failure is removed by the first
  operation that looks at it (`Store.forget`), and until then it is as good as absent
  (`Store.failure?`).
* **Feeds** (`Feed`).  Each subscription to a channel has an inbox.  The empty message says that
  delivery has (re)started; while the store is disconnected nothing is delivered.
* **Completion** (`Store.complete`).  The new record replaces the other kind of record, the claim
  is released and the id announced.  A failure whose expiry the clock cannot name stops the
  operation half way: the old value is gone and nothing else has happened.
* **Signals.**  Every enqueue that changes a queue leaves a marker and counts one signal, which
  wakes all who wait for work (`ReadThrough.Store.Wait`). -/

namespace ReadThrough

/-- The changing part of one queue. -/
structure QueueState where
  backlog : Backlog := {}
  /-- Work-ready markers that nobody has taken yet. -/
  markers : Nat := 0
  claimed : Std.ExtTreeSet Id := ∅
deriving DecidableEq

instance : Inhabited QueueState := ⟨{}⟩

/-- A stored failure. -/
structure Failure where
  message : String
  expires : Instant
deriving DecidableEq, Repr, Inhabited

/-- One subscription to a channel. -/
structure Feed where
  channel : String
  /-- Messages delivered and not yet received, oldest first. -/
  inbox : List String := []
  /-- Whether somebody still listens. -/
  listening : Bool := true
  /-- Whether the far end was closed: the inbox can be emptied, nothing more comes. -/
  closed : Bool := false
deriving DecidableEq, Repr, Inhabited

namespace Feed

/-- Whether messages reach this feed. -/
def live (f : Feed) : Bool := f.listening && !f.closed

/-- Put a message into the inbox of a live feed. -/
def deliver (f : Feed) (message : String) : Feed :=
  if f.live then { f with inbox := f.inbox ++ [message] } else f

end Feed

/-- Everything that is stored. -/
structure Store where
  queues : Std.ExtTreeMap String QueueState := ∅
  values : Std.ExtTreeMap String Bytes := ∅
  failures : Std.ExtTreeMap String Failure := ∅
  feeds : List Feed := []
  connected : Bool := true
  /-- The number of enqueues so far that changed a queue. -/
  signals : Nat := 0
deriving DecidableEq

instance : Inhabited Store := ⟨{}⟩

namespace Store

/-- The state of a queue, empty if it was never used. -/
def queue (s : Store) (k : Keys) : QueueState := s.queues.getD k.queue {}

/-- Replace the state of a queue. -/
def setQueue (s : Store) (k : Keys) (q : QueueState) : Store :=
  { s with queues := s.queues.insert k.queue q }

/-! ### Records -/

/-- The failure kept under a key that has not expired. -/
def failure? (s : Store) (now : Instant) (key : String) : Option Failure :=
  s.failures[key]?.filter fun f => now < f.expires

/-- Remove the failure under a key if it has expired. -/
def forget (s : Store) (now : Instant) (key : String) : Store :=
  match s.failures[key]? with
  | some f => if f.expires ≤ now then { s with failures := s.failures.erase key } else s
  | none => s

/-- Whether an id has a value or a live failure. -/
def finished (s : Store) (k : Keys) (id : Id) (now : Instant) : Bool :=
  s.values.contains (k.value id) || (s.failure? now (k.failure id)).isSome

/-- What asking whether an id is finished leaves behind: the failure is looked at only if there is
no value. -/
def afterFinished (s : Store) (k : Keys) (id : Id) (now : Instant) : Store :=
  if s.values.contains (k.value id) then s else s.forget now (k.failure id)

/-- Whether an id is finished, and the store after asking. -/
def isFinished (s : Store) (k : Keys) (id : Id) (now : Instant) : Bool × Store :=
  (s.finished k id now, s.afterFinished k id now)

/-- What is stored for an id; a live failure comes before a value. -/
def record (s : Store) (k : Keys) (id : Id) (now : Instant) : Record :=
  match s.failure? now (k.failure id) with
  | some f => .failure f.message
  | none =>
    match s.values[k.value id]? with
    | some bytes => .value bytes
    | none => .missing

/-- What is stored for an id, and the store after looking. -/
def lookup (s : Store) (k : Keys) (id : Id) (now : Instant) : Record × Store :=
  (s.record k id now, s.forget now (k.failure id))

/-! ### Queueing -/

/-- Queue an id unless it is claimed or finished. -/
def enqueue (s : Store) (k : Keys) (id : Id) (p : Priority) (now : Instant) : Enqueued × Store :=
  if (s.queue k).claimed.contains id then (.inProgress, s)
  else if s.finished k id now then (.resolved, s.afterFinished k id now)
  else
    let s := s.afterFinished k id now
    let q := s.queue k
    if q.backlog.improves id p then
      (.queued, { s.setQueue k { q with backlog := q.backlog.offer id p, markers := q.markers + 1 }
        with signals := s.signals + 1 })
    else (.queued, s)

/-- Claim the first queued id. -/
def dequeue (s : Store) (k : Keys) : Option Claim × Store :=
  let q := s.queue k
  match q.backlog.pop? with
  | none => (none, s)
  | some (task, rest) =>
    (some task, s.setQueue k { q with backlog := rest, claimed := q.claimed.insert task.id })

/-- Take a work-ready marker, if one is left. -/
def takeMarker (s : Store) (k : Keys) : Option Store :=
  let q := s.queue k
  if q.markers = 0 then none else some (s.setQueue k { q with markers := q.markers - 1 })

/-- The first `n` queued ids. -/
def queued (s : Store) (k : Keys) (n : Nat) : List Id := (s.queue k).backlog.ids n

/-- The claimed ids in order. -/
def inProgress (s : Store) (k : Keys) : List Id := (s.queue k).claimed.toList

/-- The number of queued ids. -/
def pending (s : Store) (k : Keys) : Nat := (s.queue k).backlog.size

/-! ### Announcements -/

/-- Deliver a message to every live feed of a channel. -/
def publish (s : Store) (channel message : String) : Store :=
  if s.connected then
    { s with feeds := s.feeds.map fun f => if f.channel = channel then f.deliver message else f }
  else s

/-- Release the claim on an id. -/
def release (s : Store) (k : Keys) (id : Id) : Store :=
  let q := s.queue k
  if q.claimed.contains id then s.setQueue k { q with claimed := q.claimed.erase id } else s

/-- Write back how a computation ended; `false` if the clock cannot name the expiry. -/
def complete (s : Store) (k : Keys) (id : Id) (c : Completion) (now : Instant) : Bool × Store :=
  match c with
  | .value bytes =>
    let s := { s with
      failures := s.failures.erase (k.failure id), values := s.values.insert (k.value id) bytes }
    (true, (s.release k id).publish k.channel id)
  | .failure message ttl =>
    let s := { s with values := s.values.erase (k.value id) }
    match now.after? ttl with
    | none => (false, s)
    | some expires =>
      let s := { s with failures := s.failures.insert (k.failure id) ⟨message, expires⟩ }
      (true, (s.release k id).publish k.channel id)

/-- Stop delivering messages. -/
def disconnect (s : Store) : Store := { s with connected := false }

/-- Deliver messages again, after one empty message on every feed. -/
def reconnect (s : Store) : Store :=
  { s with connected := true, feeds := s.feeds.map (·.deliver "") }

/-- Subscribe to a channel; gives the number of the new feed. -/
def subscribe (s : Store) (channel : String) : Nat × Store :=
  (s.feeds.length,
    { s with feeds := s.feeds ++ [{ channel, inbox := if s.connected then [""] else [] }] })

/-- The next message of a feed, and the store without it. -/
def receive? (s : Store) (feed : Nat) : Option (String × Store) :=
  match s.feeds[feed]? with
  | some f =>
    match f.inbox with
    | [] => none
    | message :: rest =>
      some (message, { s with feeds := s.feeds.set feed { f with inbox := rest } })
  | none => none

/-- Whether a feed is closed and empty. -/
def feedEnded (s : Store) (feed : Nat) : Bool :=
  match s.feeds[feed]? with
  | some f => f.closed && f.inbox.isEmpty
  | none => true

/-- Stop listening to a feed. -/
def unsubscribe (s : Store) (feed : Nat) : Store :=
  { s with feeds := s.feeds.modify feed fun f => { f with listening := false, inbox := [] } }

/-- Close the far end of every feed. -/
def closeFeeds (s : Store) : Store :=
  { s with feeds := s.feeds.map fun f => { f with closed := true } }

/-! ### Failures -/

/-- The answer of an operation; a fault takes its place, and then the store is not reached. -/
def attempt {α : Type} (s : Store) (fault : Option Error) (f : Store → α × Store) :
    Except Error α × Store :=
  match fault with
  | some e => (.error e, s)
  | none => let (a, s) := f s; (.ok a, s)

end Store

end ReadThrough
