import ReadThrough.Cache

/-! # The system

Any number of caches, callers and outside users of one store, and the atomic steps they can take.

* **State** (`System`).  The clock, the store, all caches and all calls that ever were; each is
  known by its place in its list.
* **Actions** (`Action`).  One action is one atomic step of one task, or one operation from
  outside.  Whoever asks the store may be given a fault instead of an answer; the store is then
  not reached.
* **Steps** (`System.step?`).  An action happens or it does not apply.  Nothing is said about who
  goes first: a run is any list of actions (`System.run?`), and time may pass between any two. -/

namespace ReadThrough

/-- Everything there is. -/
structure System where
  now : Instant := 0
  store : Store := {}
  caches : List Cache := []
  calls : List Call := []
  closings : List Closing := []
  seekers : List Seeker := []
  /-- What has happened, the newest first. -/
  events : List Event := []

/-- What came of the start of a cache. -/
inductive Started where
  /-- It runs, and this is its number. -/
  | running (cache : Nat)
  /-- The start broke off with this last word. -/
  | crashed (message : String)
deriving DecidableEq, Repr

/-- One atomic step. -/
inductive Action where
  /-- A step of the notifier of a cache. -/
  | notifier (cache : Nat) (move : Notifier.Move) (fault : Option Error)
  /-- A step of the dequeue loop of a cache. -/
  | loop (cache : Nat) (move : Pool.LoopMove) (fault : Option Error)
  /-- A step of a worker of a cache. -/
  | worker (cache worker : Nat) (move : Pool.WorkerMove) (fault : Option Error)
  /-- A step of a caller. -/
  | call (call : Nat) (fault : Option Error)
  /-- A caller is dropped. -/
  | cancel (call : Nat)
  /-- A step of a shutdown. -/
  | closing (closing : Nat)
  /-- A shutdown is dropped. -/
  | cancelClosing (closing : Nat)
  /-- A step of a wait for work. -/
  | seeker (seeker : Nat) (fault : Option Error)
  /-- A wait for work is dropped. -/
  | cancelSeeker (seeker : Nat)
  /-- Start a cache; it computes if it is given something to compute with. -/
  | openCache (settings : Settings) (computes : Bool) (fault : Option Error)
  /-- Start a notifier without a cache. -/
  | openNotifier (keys : Keys) (fault : Option Error)
  /-- Raise the stop signal of a cache without waiting for anything. -/
  | drop (cache : Nat)
  /-- A caller wants an id. -/
  | get (cache : Nat) (id : Id) (priority : Priority)
  /-- Somebody wants to shut a cache down. -/
  | shutdown (cache : Nat)
  /-- Somebody outside waits for work. -/
  | seek (keys : Keys) (timeout : Duration)
  /-- Watch an id at the notifier of a cache without being a caller. -/
  | watch (cache : Nat) (id : Id)
  /-- Stop listening as such a watcher. -/
  | leave (cache : Nat) (waiter : Nat)
  /-- Tell a notifier that somebody stopped listening. -/
  | release (cache : Nat) (id : Id)
  | enqueue (keys : Keys) (id : Id) (priority : Priority) (fault : Option Error)
  | dequeue (keys : Keys) (fault : Option Error)
  | complete (keys : Keys) (id : Id) (completion : Completion) (fault : Option Error)
  | lookup (keys : Keys) (id : Id) (fault : Option Error)
  | isFinished (keys : Keys) (id : Id) (fault : Option Error)
  | subscribe (channel : String) (fault : Option Error)
  | receive (feed : Nat)
  | unsubscribe (feed : Nat)
  | disconnect
  | reconnect
  | closeFeeds
  /-- Time passes. -/
  | tick (span : Duration)

namespace System

/-- Note what has happened. -/
def note (s : System) (events : List Event) : System :=
  { s with events := events.reverse ++ s.events }

/-- Everything that has happened, the oldest first. -/
def history (s : System) : List Event := s.events.reverse

/-! ### Operations from outside -/

/-- Queue an id. -/
def enqueue (s : System) (k : Keys) (id : Id) (p : Priority) (fault : Option Error) :
    Except Error Enqueued × System :=
  match fault with
  | some e => (.error e, s)
  | none =>
    let (outcome, store) := s.store.enqueue k id p s.now
    (.ok outcome, { s with store }.note [.enqueued k.name id p outcome])

/-- Claim the first queued id. -/
def dequeue (s : System) (k : Keys) (fault : Option Error) :
    Except Error (Option Claim) × System :=
  match fault with
  | some e => (.error e, s)
  | none =>
    match s.store.dequeue k with
    | (some task, store) => (.ok (some task), { s with store }.note [.dequeued k.name task])
    | (none, store) => (.ok none, { s with store }.note [.dequeuedNothing k.name])

/-- Write back a result; `false` if the clock cannot name the expiry. -/
def complete (s : System) (k : Keys) (id : Id) (c : Completion) (fault : Option Error) :
    Except Error Bool × System :=
  match fault with
  | some e => (.error e, s)
  | none =>
    match s.store.complete k id c s.now with
    | (true, store) => (.ok true, { s with store }.note [.completed k.name c.outcome])
    | (false, store) => (.ok false, { s with store })

/-- Look for a record. -/
def lookup (s : System) (k : Keys) (id : Id) (fault : Option Error) :
    Except Error Record × System :=
  match fault with
  | some e => (.error e, s)
  | none =>
    let (r, store) := s.store.lookup k id s.now
    (.ok r, { s with store })

/-- Ask whether an id is finished. -/
def isFinished (s : System) (k : Keys) (id : Id) (fault : Option Error) :
    Except Error Bool × System :=
  match fault with
  | some e => (.error e, s)
  | none =>
    let (r, store) := s.store.isFinished k id s.now
    (.ok r, { s with store })

/-- Subscribe to a channel. -/
def subscribe (s : System) (channel : String) (fault : Option Error) :
    Except Error Nat × System :=
  match fault with
  | some e => (.error e, s)
  | none =>
    let (feed, store) := s.store.subscribe channel
    (.ok feed, { s with store })

/-- Start a notifier without a cache; gives the number of its place. -/
def openNotifier (s : System) (k : Keys) (fault : Option Error) : Except Error Nat × System :=
  match s.subscribe k.channel fault with
  | (.error e, s) => (.error e, s)
  | (.ok feed, s) =>
    (.ok s.caches.length,
      { s with caches := s.caches ++ [{
        settings := { queue := k.name }, notifier := { keys := k, feed }
        background := [.notifier] }] })

/-- Why a cache cannot be started with some settings. -/
def refusal? (settings : Settings) (computes : Bool) : Option Error :=
  match settings.problem? with
  | some p => some (.config p)
  | none => if computes ∧ settings.workers = 0 then some (.config .noWorkers) else none

/-- The last word of the start of a cache, if it breaks off. -/
def startCrash? (settings : Settings) (computes : Bool) : Option String :=
  if computes then Pool.startCrash? settings.workers else none

/-- Start a cache. -/
def openCache (s : System) (settings : Settings) (computes : Bool) (fault : Option Error) :
    Except Error Started × System :=
  match refusal? settings computes with
  | some e => (.error e, s)
  | none =>
    match s.subscribe settings.keys.channel fault, startCrash? settings computes with
    | (.error e, s), _ => (.error e, s)
    | (.ok _, _), some message =>
      -- The notifier has begun.  It is left alone, ends and takes its subscription with it.
      (.ok (.crashed message), s.note [.notifierStopped settings.queue])
    | (.ok feed, s), none =>
      let pool := if computes then some (Pool.start settings.workers) else none
      let cache : Cache := {
        settings, notifier := { keys := settings.keys, feed }, pool
        background := Cache.tasks pool }
      let started := if computes then [Event.poolStarted settings.queue settings.workers] else []
      (.ok (.running s.caches.length),
        { s with caches := s.caches ++ [cache] }.note
          (started ++ [Event.cacheStarted settings.queue cache.workers]))

/-! ### Steps -/

/-- Put a cache into its place. -/
def setCache (s : System) (i : Nat) (c : Cache) : System := { s with caches := s.caches.set i c }

/-- What a pool may look at. -/
def context (s : System) (c : Cache) (fault : Option Error) : Pool.Context :=
  { settings := c.settings, now := s.now, stopping := c.stopping, fault }

/-- One atomic step; none if the action does not apply. -/
def step? (s : System) : Action → Option System
  | .notifier i m fault => do
    let c ← s.caches[i]?
    let (n, store, events) ← c.notifier.step? s.store s.now c.stopping fault m
    some ({ (s.setCache i { c with notifier := n }) with store }.note events)
  | .loop i m fault => do
    let c ← s.caches[i]?
    let p ← c.pool
    let (p, store, events) ← p.stepLoop? (s.context c fault) s.store m
    some ({ (s.setCache i { c with pool := some p }) with store }.note events)
  | .worker i k m fault => do
    let c ← s.caches[i]?
    let p ← c.pool
    let (p, store, events) ← p.stepWorker? (s.context c fault) s.store k m
    some ({ (s.setCache i { c with pool := some p }) with store }.note events)
  | .call j fault => do
    let x ← s.calls[j]?
    let c ← s.caches[x.cache]?
    let (x', n, store, events) ← x.step? c.settings s.now fault c.notifier s.store
    some ({ (s.setCache x.cache { c with notifier := n }) with
      store, calls := s.calls.set j x' }.note events)
  | .cancel j => do
    let x ← s.calls[j]?
    let c ← s.caches[x.cache]?
    let (x', n) := x.cancel c.notifier
    some { (s.setCache x.cache { c with notifier := n }) with calls := s.calls.set j x' }
  | .closing j => do
    let x ← s.closings[j]?
    let c ← s.caches[x.cache]?
    let (x', c, events) ← x.step? c
    some ({ (s.setCache x.cache c) with closings := s.closings.set j x' }.note events)
  | .cancelClosing j => do
    let x ← s.closings[j]?
    let x' := if x.phase = .done then x else { x with phase := .cancelled }
    some { s with closings := s.closings.set j x' }
  | .seeker j fault => do
    let x ← s.seekers[j]?
    let (x, store) ← x.step? s.now fault s.store
    some { s with store, seekers := s.seekers.set j x }
  | .cancelSeeker j => do
    let x ← s.seekers[j]?
    let x' := if x.ended then x else { x with phase := .cancelled }
    some { s with seekers := s.seekers.set j x' }
  | .openCache settings computes fault => some (s.openCache settings computes fault).2
  | .openNotifier k fault => some (s.openNotifier k fault).2
  | .drop i => do
    let c ← s.caches[i]?
    some (s.setCache i { c with stopping := true })
  | .get i id p =>
    if i < s.caches.length then
      some { s with calls := s.calls ++ [{ cache := i, id, priority := p }] }
    else none
  | .shutdown i =>
    if i < s.caches.length then some { s with closings := s.closings ++ [{ cache := i }] } else none
  | .seek k timeout => some { s with seekers := s.seekers ++ [{ keys := k, timeout }] }
  | .watch i id => do
    let c ← s.caches[i]?
    let (_, n) ← c.notifier.subscribe? id
    some (s.setCache i { c with notifier := n })
  | .leave i w => do
    let c ← s.caches[i]?
    some (s.setCache i { c with notifier := c.notifier.leave w })
  | .release i id => do
    let c ← s.caches[i]?
    some (s.setCache i { c with notifier := c.notifier.release id })
  | .enqueue k id p fault => some (s.enqueue k id p fault).2
  | .dequeue k fault => some (s.dequeue k fault).2
  | .complete k id c fault => some (s.complete k id c fault).2
  | .lookup k id fault => some (s.lookup k id fault).2
  | .isFinished k id fault => some (s.isFinished k id fault).2
  | .subscribe channel fault => some (s.subscribe channel fault).2
  | .receive feed => (s.store.receive? feed).map fun (_, store) => { s with store }
  | .unsubscribe feed => some { s with store := s.store.unsubscribe feed }
  | .disconnect => some { s with store := s.store.disconnect }
  | .reconnect => some { s with store := s.store.reconnect }
  | .closeFeeds => some { s with store := s.store.closeFeeds }
  | .tick span => some { s with now := s.now + span.nanos }

/-- A run: every action has to apply. -/
def run? (s : System) : List Action → Option System
  | [] => some s
  | a :: rest => (s.step? a).bind fun s => s.run? rest

end System

end ReadThrough
