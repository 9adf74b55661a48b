import ReadThrough.Cache
import ReadThrough.Wire.Remote

/-! # Caches over the wire

One cache whose store is far away, run by a single agent that does one thing at a time.

* **Tasks.**  Callers, the notifier, the dequeue loop and the workers are those of every cache;
  only their questions to the store become conversations (`Agent.talk`).
* **Turns** (`Asker`).  Whoever has a question takes its place in a line; the first in the line is
  answered first.
* **Needs** (`Agent.Need`).  What the agent needs from outside before anything can go on: an
  answer, a computation, a message or the passing of time.  It computes before it waits for work,
  and waits for messages only when there is nothing else to do. -/

namespace ReadThrough.Wire

/-- Who has a question to the store. -/
inductive Asker where
  | call (number : Nat)
  | notifier
  | loop
  | worker (number : Nat)
deriving DecidableEq, Repr, Inhabited

/-- A cache over the wire. -/
structure Agent where
  settings : Settings
  now : Instant := 0
  notifier : Notifier
  calls : List Call := []
  /-- The pool, if the cache computes. -/
  pool : Option Pool := none
  /-- Messages of the subscription that the notifier has not taken yet. -/
  inbox : List String := []
  /-- Those who have a question, in the order of their turns. -/
  line : List Asker := []

namespace Agent

/-- A cache that was just subscribed; it computes if it is told to. -/
def start (settings : Settings) (computes : Bool) : Agent :=
  { settings, notifier := { keys := settings.keys, feed := 0 }
    pool := if computes then some (Pool.start settings.workers) else none }

/-- Callers that want ids, all at the same time. -/
def want (a : Agent) (priority : Priority) (ids : List Id) : Agent :=
  { a with calls := a.calls ++ ids.map fun id => { cache := 0, id, priority } }

/-- The results of the callers, once all of them have one. -/
def results? (a : Agent) : Option (List (Except Error Bytes)) := a.calls.mapM Call.result?

/-- A message arrives on the subscription. -/
def deliver (a : Agent) (message : String) : Agent := { a with inbox := a.inbox ++ [message] }

/-- Time passes. -/
def waitUntil (a : Agent) (t : Instant) : Agent := { a with now := max a.now t }

/-- What the pool may look at. -/
def context (a : Agent) : Pool.Context :=
  { settings := a.settings, now := a.now, stopping := false }

/-! ### Steps that ask nothing -/

/-- A caller goes on. -/
def advanceCall? (a : Agent) (j : Nat) : Option Agent := do
  let c ← a.calls[j]?
  if c.query?.isSome then none
  else
    let (c, n, _) ← c.advance? a.settings a.now a.notifier
    some { a with calls := a.calls.set j c, notifier := n }

/-- The notifier goes on. -/
def advanceNotifier? (a : Agent) : Option Agent :=
  match a.notifier.phase with
  | .idle =>
    match a.notifier.takeRequest? with
    | some n => some { a with notifier := n }
    | none =>
      match a.inbox with
      | [] => none
      | message :: rest => some { a with notifier := (a.notifier.receive message).1, inbox := rest }
  | .reconciling [] _ => some { a with notifier := a.notifier.settle }
  | _ => none

/-- Whether the loop is about to wait for work. -/
def seeks (p : Pool) : Bool := p.loop = .holding && !p.hasMore

/-- The loop goes on. -/
def advanceLoop? (a : Agent) : Option Agent := do
  let p ← a.pool
  if seeks p ∨ p.loop = .claiming then none
  else
    let (p, _, _) ← p.advanceLoop? a.context {}
    some { a with pool := some p }

/-- A worker goes on. -/
def advanceWorker? (a : Agent) (k : Nat) : Option Agent := do
  let p ← a.pool
  match ← p.workers[k]? with
  | .writing .. => none
  | _ =>
    let (p, _, _) ← p.stepWorker? a.context {} k .advance
    some { a with pool := some p }

/-- The number of workers. -/
def workers (a : Agent) : Nat := (a.pool.map fun p => p.workers.length).getD 0

/-- The first step that asks nothing. -/
def advance? (a : Agent) : Option Agent :=
  (List.range a.calls.length).findSome? a.advanceCall?
    <|> a.advanceNotifier? <|> a.advanceLoop?
    <|> (List.range a.workers).findSome? a.advanceWorker?

/-- Steps that ask nothing, as long as there are any. -/
def settle : Nat → Agent → Agent
  | 0, a => a
  | n + 1, a =>
    match a.advance? with
    | some a => a.settle n
    | none => a

/-- More steps than can be taken without an answer: a caller and a worker take at most three, a
request and a message one, and the loop five. -/
def patience (a : Agent) : Nat :=
  4 * (a.calls.length + a.workers + a.notifier.requests.length + a.inbox.length) + 8

/-! ### Questions -/

/-- The id that the notifier asks about. -/
def asked? (n : Notifier) : Option Id :=
  match n.phase with
  | .checking id => some id
  | .reconciling (id :: _) _ => some id
  | _ => none

/-- Whether somebody has a question. -/
def asks (a : Agent) : Asker → Bool
  | .call j => match a.calls[j]? with
    | some c => c.query?.isSome
    | none => false
  | .notifier => (asked? a.notifier).isSome
  | .loop => match a.pool with
    | some p => p.loop = .claiming
    | none => false
  | .worker k => match a.pool.bind fun p => p.workers[k]? with
    | some (.writing ..) => true
    | _ => false

/-- Everybody who could have a question. -/
def everybody (a : Agent) : List Asker :=
  (List.range a.calls.length).map .call
    ++ .notifier :: .loop :: (List.range a.workers).map .worker

/-- Those who have a new question take their places in the line. -/
def queueUp (a : Agent) : Agent :=
  let fresh := a.everybody.filter fun x => a.asks x && !a.line.contains x
  { a with line := a.line.filter a.asks ++ fresh }

/-- A conversation whose result changes the agent. -/
def told {α : Type} (t : Talk α) (f : Except Error α → Agent → Agent) : Talk (Agent → Agent) :=
  t.onEnd fun r => .result (.ok (f r))

/-- The conversation of somebody who has a question. -/
def talk (a : Agent) : Asker → Option (Talk (Agent → Agent))
  | .call j => do
    let c ← a.calls[j]?
    let queue := a.settings.queue
    match ← c.query? with
    | .lookup =>
      some (told (Remote.lookup a.settings.keys c.id) fun r a =>
        let (c, n, _) := c.afterLookup queue a.notifier r
        { a with calls := a.calls.set j c, notifier := n })
    | .enqueue =>
      some (told (Remote.enqueue a.settings.keys c.id c.priority) fun r a =>
        { a with calls := a.calls.set j (c.afterEnqueue queue r).1 })
  | .notifier => do
    let id ← asked? a.notifier
    some (told (Remote.isFinished a.settings.keys id) fun r a =>
      { a with notifier := (a.notifier.afterCheck id r).1 })
  | .loop =>
    some (told (Remote.dequeue a.settings.keys) fun r a =>
      { a with pool := a.pool.map fun p => (p.afterClaim a.context r).1 })
  | .worker k => do
    match ← a.pool.bind fun p => p.workers[k]? with
    | .writing task completion =>
      some (told (Remote.complete a.settings.keys task.id completion) fun _ a =>
        { a with pool := a.pool.map fun p => p.finish k .starting })
    | _ => none

/-- The wait for work of the loop. -/
def seek (a : Agent) : Talk (Agent → Agent) :=
  told (Remote.wait a.settings.keys a.settings.pollTimeout) fun r a =>
    { a with pool := a.pool.map fun p =>
        match r with
        | .ok _ => { p with loop := .checking }
        | .error e => (p.afterFailedWait a.context e).1 }

/-! ### Needs -/

/-- What the agent needs from outside. -/
inductive Need where
  /-- An answer to a question. -/
  | answer (talk : Talk (Agent → Agent))
  /-- The result of a computation. -/
  | computation (worker : Nat) (task : Claim)
  /-- An answer to the wait for work. -/
  | work (talk : Talk (Agent → Agent))
  /-- A message, or this moment. -/
  | message (deadline : Option Instant)

/-- The worker that computes and its task. -/
def computing? (a : Agent) : Option (Nat × Claim) := do
  let p ← a.pool
  (List.range p.workers.length).findSome? fun k =>
    match p.workers[k]? with
    | some (WorkerPhase.computing task) => some (k, task)
    | _ => none

/-- The moments that somebody waits for. -/
def deadlines (a : Agent) : List Instant :=
  let calls := a.calls.filterMap fun c =>
    match c.phase with
    | .waiting _ deadline => deadline
    | _ => none
  match a.pool.map fun p => p.loop with
  | some (LoopPhase.pausing (some t)) => t :: calls
  | _ => calls

/-- Go on as far as possible, and tell what is needed then. -/
def next (a : Agent) : Need × Agent :=
  let a := (a.settle a.patience).queueUp
  let turn := a.line.head?.bind fun x => (a.talk x).map fun t => (t, a.line.tail)
  match turn with
  | some (t, line) => (.answer t, { a with line })
  | none =>
    match a.computing? with
    | some (k, task) => (.computation k task, a)
    | none =>
      if (a.pool.map seeks).getD false then (.work a.seek, a)
      else (.message a.deadlines.min?, a)

/-- A computation has ended. -/
def computed (a : Agent) (worker : Nat) (result : Computed) : Agent :=
  { a with pool := a.pool.map fun p =>
      match p.stepWorker? a.context {} worker (.computed result) with
      | some (p, _, _) => p
      | none => p }

end Agent

end ReadThrough.Wire
