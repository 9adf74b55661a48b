import ReadThrough.Call
import ReadThrough.Pool

/-! # Caches

One cache as the tasks that it runs (`Cache`), a request to shut it down (`Closing`), and somebody
outside of any cache who waits for work (`Seeker`).

A shutdown raises the stop signal, takes over the background tasks that nobody has waited for yet,
and waits for each of them in turn. -/

namespace ReadThrough

/-- A background task of a cache. -/
inductive TaskRef where
  | notifier
  | loop
  | worker (k : Nat)
deriving DecidableEq, Repr, Inhabited

/-- One cache. -/
structure Cache where
  settings : Settings
  /-- The stop signal. -/
  stopping : Bool := false
  notifier : Notifier
  /-- The pool, if the cache computes. -/
  pool : Option Pool := none
  /-- The background tasks that no shutdown has taken over. -/
  background : List TaskRef := []
deriving DecidableEq, Inhabited

namespace Cache

/-- The number of workers that the cache runs. -/
def workers (c : Cache) : Nat :=
  match c.pool with
  | some p => p.workers.length
  | none => 0

/-- Whether a background task has ended. -/
def taskEnded (c : Cache) : TaskRef → Bool
  | .notifier => c.notifier.ended
  | .loop => match c.pool with
    | some p => p.loop.ended
    | none => true
  | .worker k => match c.pool.bind fun p => p.workers[k]? with
    | some phase => phase.ended
    | none => true

/-- Whether a background task ended by a crash. -/
def taskCrashed (c : Cache) : TaskRef → Bool
  | .notifier => false
  | .loop => match c.pool with
    | some p => p.loop = .crashed
    | none => false
  | .worker k => match c.pool.bind fun p => p.workers[k]? with
    | some phase => phase.isCrashed
    | none => false

/-- The last words of a background task that ended by a crash. -/
def lastWords? (c : Cache) : TaskRef → Option String
  | .notifier => none
  | .loop => some Instant.overflowText
  | .worker k => match c.pool.bind fun p => p.workers[k]? with
    | some (.crashed words) => words
    | _ => none

/-- The background tasks of a new cache, in the order in which they are waited for. -/
def tasks (pool : Option Pool) : List TaskRef :=
  match pool with
  | none => [.notifier]
  | some p => .notifier :: .loop :: (List.range p.workers.length).map .worker

end Cache

/-- Where a request to shut down stands. -/
inductive Closing.Phase where
  | signalling
  | taking
  /-- Waiting for the first of the tasks to end. -/
  | joining (tasks : List TaskRef)
  | done
  | cancelled
deriving DecidableEq, Repr, Inhabited

/-- A request to shut a cache down. -/
structure Closing where
  /-- The number of the cache. -/
  cache : Nat
  phase : Closing.Phase := .signalling
deriving DecidableEq, Repr, Inhabited

namespace Closing

/-- What is reported for a task that did not end by itself. -/
def crashText : Option String → String
  | some words => "task panicked: " ++ words
  | none => "task panicked"

/-- One step of a shutdown; none while it waits for a task. -/
def step? (x : Closing) (c : Cache) : Option (Closing × Cache × List Event) :=
  match x.phase with
  | .signalling => some ({ x with phase := .taking }, { c with stopping := true }, [])
  | .taking => some ({ x with phase := .joining c.background }, { c with background := [] }, [])
  | .joining (t :: rest) =>
    if c.taskEnded t then
      some ({ x with phase := .joining rest }, c,
        if c.taskCrashed t then [.backgroundFailed c.settings.queue (crashText (c.lastWords? t))]
        else [])
    else none
  | .joining [] => some ({ x with phase := .done }, c, [.cacheShutDown c.settings.queue])
  | .done => none
  | .cancelled => none

end Closing

/-- Where somebody stands who waits for work. -/
inductive Seeker.Phase where
  | starting
  | waiting (wait : Wait)
  | finished (work : Bool)
  | refused (reason : Error)
  /-- The clock cannot name the deadline. -/
  | crashed
  | cancelled
deriving DecidableEq, Repr, Inhabited

/-- Somebody outside of any cache who waits for work. -/
structure Seeker where
  keys : Keys
  timeout : Duration
  phase : Seeker.Phase := .starting
deriving DecidableEq, Repr, Inhabited

namespace Seeker

/-- One step of a wait for work; none while there is nothing to do but wait. -/
def step? (x : Seeker) (now : Instant) (fault : Option Error) (s : Store) :
    Option (Seeker × Store) :=
  match x.phase with
  | .starting =>
    match fault with
    | some e => some ({ x with phase := .refused e }, s)
    | none =>
      match Wait.start? x.keys x.timeout now with
      | some w => some ({ x with phase := .waiting w }, s)
      | none => some ({ x with phase := .crashed }, s)
  | .waiting w =>
    (w.step? s now).map fun
      | (.waiting w, s) => ({ x with phase := .waiting w }, s)
      | (.finished work, s) => ({ x with phase := .finished work }, s)
  | _ => none

/-- Whether the wait has ended. -/
def ended (x : Seeker) : Bool :=
  match x.phase with
  | .starting => false
  | .waiting _ => false
  | _ => true

end Seeker

end ReadThrough
