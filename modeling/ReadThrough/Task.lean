import ReadThrough.Duration
import ReadThrough.Keys

/-! # Tasks and their results

What moves through a queue: the answer to an enqueue (`Enqueued`), a claimed task (`Claim`), what
is written back when its computation ends (`Completion`), and what a reader finds (`Record`). -/

namespace ReadThrough

/-- Bytes as they are stored. -/
abbrev Bytes := List UInt8

/-- What an enqueue found for the id. -/
inductive Enqueued where
  /-- The id waits in the queue now. -/
  | queued
  /-- The id is claimed; nothing was changed. -/
  | inProgress
  /-- A value or a live failure exists; nothing was changed. -/
  | resolved
deriving DecidableEq, Repr, Inhabited

namespace Enqueued

/-- Whether nothing further has to be scheduled for the id. -/
def alreadyResolved : Enqueued → Bool
  | queued => false
  | inProgress => true
  | resolved => true

/-- The name of an outcome. -/
def name : Enqueued → String
  | queued => "Queued"
  | inProgress => "InProgress"
  | resolved => "Resolved"

end Enqueued

/-- A task taken off the queue. -/
structure Claim where
  id : Id
  priority : Priority
  /-- The number of entries left in the queue. -/
  remaining : Nat
deriving DecidableEq, Repr, Inhabited

/-- What is written back when a computation has ended. -/
inductive Completion where
  | value (bytes : Bytes)
  /-- A failure, kept for `ttl`. -/
  | failure (message : String) (ttl : Duration)
deriving DecidableEq, Repr

/-- What a reader finds for an id. -/
inductive Record where
  | value (bytes : Bytes)
  | failure (message : String)
  | missing
deriving DecidableEq, Repr, Inhabited

end ReadThrough
