import ReadThrough.Settings
import ReadThrough.Store.Wait
import ReadThrough.Telemetry

/-! # The worker pool

A loop that claims tasks and the workers that compute them.

* **Permits.**  There is one permit per worker.  The loop claims only while it holds a permit; the
  permit travels with the task to a worker, and is free again when the worker is done.
* **The loop** (`LoopPhase`).  It acquires a permit, waits for a marker unless it knows that more
  is queued, looks at the stop signal, claims, and hands the task over.  A failed wait is followed
  by a pause; a failed or empty claim by another wait.
* **Workers** (`WorkerPhase`).  A worker takes a task, computes, counts, writes the result back and
  starts again.  The stop signal ends it at any point where it waits; a task in its hands then
  stays claimed.
* **Crashes.**  A deadline or an expiry that the clock cannot name ends the loop or the worker that
  asked for it.  A pool of too many workers does not even start (`Pool.startCrash?`).
* **Collapses** (`WorkerMove.collapse`).  A computation that breaks off is caught, but what it leaves
  behind is foreign code as well: a value, an error or a payload that breaks off when it is dropped,
  or an error that cannot be put into words, takes the worker down.  Its task stays claimed.
* **The channel** (`Pool.close`) goes with the last worker, and the tasks in it with the channel. -/

namespace ReadThrough

/-- What came of a computation.  It may take its worker down besides, or before there is a result
(`Pool.WorkerMove.collapse`). -/
inductive Computed where
  /-- It returned a value, here already encoded. -/
  | value (bytes : Bytes)
  /-- It returned a value that could not be encoded. -/
  | refused (reason : Error)
  | failed (message : String)
  /-- It broke off; the payload is its last word, if that was a text. -/
  | panicked (payload : Option String)
deriving DecidableEq, Repr

namespace Computed

/-- A returned value under an encoder. -/
def ofReturned {α : Type} (encode : α → Except Error Bytes) (v : α) : Computed :=
  match encode v with
  | .ok bytes => value bytes
  | .error e => refused e

/-- The message of what did not give a value. -/
def failure? : Computed → Option String
  | value _ => none
  | refused e => some ("Error encoding worker result: " ++ e.message)
  | failed m => some m
  | panicked p => some ("worker panicked: " ++ p.getD "non-string panic payload")

/-- What is written back; failures are kept for `ttl`. -/
def completion (ttl : Duration) (c : Computed) : Completion :=
  match c with
  | value bytes => .value bytes
  | c => .failure (c.failure?.getD "") ttl

end Computed

/-- Where the dequeue loop stands. -/
inductive LoopPhase where
  /-- Waiting for a free permit. -/
  | acquiring
  /-- Holding a permit. -/
  | holding
  /-- Waiting for a marker. -/
  | waiting (wait : Wait)
  /-- Pausing after a failed wait; without an end if the clock cannot name it. -/
  | pausing (until? : Option Instant)
  /-- About to look at the stop signal. -/
  | checking
  | claiming
  | sending (task : Claim)
  | stopped
  | crashed
deriving DecidableEq, Repr, Inhabited

namespace LoopPhase

/-- Whether the loop has ended. -/
def ended : LoopPhase → Bool
  | stopped => true
  | crashed => true
  | _ => false

/-- Whether the loop holds a permit. -/
def holds : LoopPhase → Bool
  | acquiring => false
  | stopped => false
  | crashed => false
  | _ => true

end LoopPhase

/-- Where a worker stands. -/
inductive WorkerPhase where
  /-- About to look at the stop signal. -/
  | starting
  /-- Waiting for a task. -/
  | receiving
  /-- A task was received and not yet begun. -/
  | handed (task : Claim)
  | computing (task : Claim)
  /-- The computation is counted and its result is to be written. -/
  | writing (task : Claim) (completion : Completion)
  | stopped
  /-- It broke off; the words are the last ones, if there were any. -/
  | crashed (words : Option String)
deriving DecidableEq, Repr, Inhabited

namespace WorkerPhase

/-- Whether the worker has ended. -/
def ended : WorkerPhase → Bool
  | stopped => true
  | crashed _ => true
  | _ => false

/-- Whether the worker broke off. -/
def isCrashed : WorkerPhase → Bool
  | crashed _ => true
  | _ => false

/-- The task in the hands of a worker. -/
def task? : WorkerPhase → Option Claim
  | handed t => some t
  | computing t => some t
  | writing t _ => some t
  | _ => none

end WorkerPhase

/-- A dequeue loop and its workers. -/
structure Pool where
  /-- Free permits. -/
  permits : Nat
  loop : LoopPhase := .acquiring
  /-- Whether the last claim left something in the queue. -/
  hasMore : Bool := false
  /-- Tasks sent and not yet received, oldest first; each carries a permit. -/
  channel : List Claim := []
  workers : List WorkerPhase
deriving DecidableEq, Repr, Inhabited

namespace Pool

/-- A pool of `n` workers. -/
def start (n : Nat) : Pool := { permits := n, workers := List.replicate n .starting }

/-- The most permits that can be counted: three bits of a 64-bit word are kept free. -/
def maxPermits : Nat := UInt64.size / 8 - 1

/-- The most tasks that can be listed: 8 bytes each, in less than half of the memory that 64 bits
can address. -/
def maxTasks : Nat := (UInt64.size / 2 - 1) / 8

/-- The last word of the start of a pool of `n` workers, if it breaks off: the permits are made
before the list of the tasks, of which the loop is one. -/
def startCrash? (n : Nat) : Option String :=
  if maxPermits < n then
    some s!"a semaphore may not have more than MAX_PERMITS permits ({maxPermits})"
  else if maxTasks < n + 1 then some "capacity overflow"
  else none

/-- How many tasks the channel holds. -/
def capacity (p : Pool) : Nat := max p.workers.length 1

/-- Everything that a step of the pool may look at. -/
structure Context where
  settings : Settings
  now : Instant
  /-- The stop signal of the cache. -/
  stopping : Bool
  /-- An error that takes the place of the store's answer. -/
  fault : Option Error := none

/-- The name of the queue. -/
def Context.queue (c : Context) : String := c.settings.queue

/-- The loop gives back its permit, if it holds one, and ends. -/
def endLoop (p : Pool) (phase : LoopPhase) : Pool :=
  { p with permits := p.permits + (if p.loop.holds then 1 else 0), loop := phase }

/-- A step of the loop: to see the stop signal, or to go on. -/
inductive LoopMove where
  | stop
  | advance
deriving DecidableEq, Repr

/-- Whether the loop watches the stop signal while it waits. -/
def loopListens (p : Pool) : Bool :=
  match p.loop with
  | .acquiring => true
  | .holding => !p.hasMore
  | .waiting _ => true
  | .pausing _ => true
  | _ => false

/-- The loop could not wait for work and pauses. -/
def afterFailedWait (c : Context) (p : Pool) (e : Error) : Pool × List Event :=
  ({ p with loop := .pausing (c.now.deadline c.settings.pollTimeout) }, [.waitFailed c.queue e])

/-- The loop goes on with the answer to a claim. -/
def afterClaim (c : Context) (p : Pool) (answer : Except Error (Option Claim)) :
    Pool × List Event :=
  match answer with
  | .error e => ({ p with loop := .holding, hasMore := false }, [.dequeueFailed c.queue e])
  | .ok none => ({ p with loop := .holding, hasMore := false }, [.dequeuedNothing c.queue])
  | .ok (some task) =>
    ({ p with loop := .sending task, hasMore := 0 < task.remaining }, [.dequeued c.queue task])

/-- Go on with the loop. -/
def advanceLoop? (c : Context) (p : Pool) (s : Store) : Option (Pool × Store × List Event) :=
  match p.loop with
  | .acquiring =>
    if p.permits = 0 then none
    else some ({ p with permits := p.permits - 1, loop := .holding }, s, [])
  | .holding =>
    if p.hasMore then some ({ p with loop := .checking }, s, [])
    else
      match c.fault with
      | some e =>
        let (p, events) := p.afterFailedWait c e
        some (p, s, events)
      | none =>
        match Wait.start? c.settings.keys c.settings.pollTimeout c.now with
        | some w => some ({ p with loop := .waiting w }, s, [])
        | none => some (p.endLoop .crashed, s, [])
  | .waiting w =>
    (w.step? s c.now).map fun
      | (.waiting w, s) => ({ p with loop := .waiting w }, s, [])
      | (.finished _, s) => ({ p with loop := .checking }, s, [])
  | .pausing until? =>
    match until? with
    | some t => if t ≤ c.now then some ({ p with loop := .holding }, s, []) else none
    | none => none
  | .checking =>
    if c.stopping then some (p.endLoop .stopped, s, [.loopStopped c.queue])
    else some ({ p with loop := .claiming }, s, [])
  | .claiming =>
    let (r, s) := s.attempt c.fault (·.dequeue c.settings.keys)
    let (p, events) := p.afterClaim c r
    some (p, s, events)
  | .sending task =>
    if p.workers.all WorkerPhase.ended then
      some (p.endLoop .stopped, s, [.workersGone c.queue task.id, .loopStopped c.queue])
    else if p.channel.length < p.capacity then
      some ({ p with loop := .acquiring, channel := p.channel ++ [task] }, s, [])
    else none
  | .stopped => none
  | .crashed => none

/-- One step of the loop. -/
def stepLoop? (c : Context) (p : Pool) (s : Store) :
    LoopMove → Option (Pool × Store × List Event)
  | .stop =>
    if c.stopping ∧ p.loopListens then
      some (p.endLoop .stopped, s, [.loopStopped c.queue])
    else none
  | .advance => p.advanceLoop? c s

/-- Put a worker into a phase. -/
def setWorker (p : Pool) (k : Nat) (phase : WorkerPhase) : Pool :=
  { p with workers := p.workers.set k phase }

/-- A worker is done with its task: its permit is free, and it goes on in `phase`. -/
def finish (p : Pool) (k : Nat) (phase : WorkerPhase) : Pool :=
  { (p.setWorker k phase) with permits := p.permits + 1 }

/-- The tasks in a channel that nobody is left to receive from. -/
def dropped (p : Pool) : List Claim :=
  if p.workers.all WorkerPhase.ended then p.channel else []

/-- A worker has ended: the last one takes the channel with it, and the permits that the tasks in
it carry are free. -/
def close (p : Pool) : Pool :=
  { p with
    permits := p.permits + p.dropped.length
    channel := p.channel.drop p.dropped.length }

/-- A step of a worker: to see the stop signal, to go on, to end its computation, or to be taken
down by it. -/
inductive WorkerMove where
  | stop
  | advance
  | computed (result : Computed)
  /-- What the computation leaves behind breaks off, with these last words: after the result was
  there, while it is dropped, or before there was one. -/
  | collapse (result? : Option Computed) (words : Option String)
deriving DecidableEq, Repr

/-- What a failed computation reports. -/
def failureEvents (c : Context) (id : Id) (r : Computed) : List Event :=
  match r.failure? with
  | some m => [.computationFailed c.queue id m]
  | none => []

/-- What is reported of a computation that takes its worker down. -/
def collapseEvents (c : Context) (id : Id) : Option Computed → List Event
  | some r => failureEvents c id r
  | none => []

/-- One step of a worker. -/
def stepWorker? (c : Context) (p : Pool) (s : Store) (k : Nat) (m : WorkerMove) :
    Option (Pool × Store × List Event) := do
  let phase ← p.workers[k]?
  match m with
  | .stop =>
    if c.stopping then
      match phase with
      | .receiving => some ((p.setWorker k .stopped).close, s, [.workerStopped c.queue k])
      | phase =>
        match phase.task? with
        | some t =>
          some ((p.finish k .stopped).close, s, [.abandoned k t.id, .workerStopped c.queue k])
        | none => none
    else none
  | .advance =>
    match phase with
    | .starting =>
      if c.stopping then some ((p.setWorker k .stopped).close, s, [.workerStopped c.queue k])
      else some (p.setWorker k .receiving, s, [])
    | .receiving =>
      match p.channel with
      | task :: rest => some ({ (p.setWorker k (.handed task)) with channel := rest }, s, [])
      | [] =>
        if p.loop.ended then some (p.setWorker k .stopped, s, [.workerStopped c.queue k])
        else none
    | .handed task =>
      some (p.setWorker k (.computing task), s, [.taskStarted c.queue task.id task.priority])
    | .writing task completion =>
      match c.fault with
      | some e => some (p.finish k .starting, s, [.writeFailed c.queue task.id e])
      | none =>
        match s.complete c.settings.keys task.id completion c.now with
        | (true, s) => some (p.finish k .starting, s, [.completed c.queue completion.outcome])
        | (false, s) => some ((p.finish k (.crashed Instant.overflowText)).close, s, [])
    | _ => none
  | .computed r =>
    match phase with
    | .computing task =>
      let completion := r.completion c.settings.errorTtl
      some (p.setWorker k (.writing task completion), s,
        failureEvents c task.id r ++ [.taskFinished c.queue completion.outcome])
    | _ => none
  | .collapse r? words =>
    match phase with
    | .computing task =>
      some ((p.finish k (.crashed words)).close, s, collapseEvents c task.id r?)
    | _ => none

end Pool

end ReadThrough
