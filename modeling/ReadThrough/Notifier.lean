import ReadThrough.Store
import ReadThrough.Telemetry

/-! # The notifier

One task per cache that wakes callers when the id they wait for is finished.

* **Waiters** (`Waiter`).  Each waiting caller has a one-shot signal: it is woken at most once, and
  it learns when nobody will wake it any more.
* **Requests.**  Callers ask to watch an id, and tell when they stopped listening without having
  been woken.
* **Steps.**  The notifier takes requests and channel messages in any order.  After registering a
  watch it checks whether the id is finished already (`Phase.checking`); after the empty message,
  which says that delivery has (re)started, it checks every watched id (`Phase.reconciling`).
* **End** (`stop`).  Whoever is not woken by then is told that nobody will do it.  The published
  number of watched ids stays what it was. -/

namespace ReadThrough

/-- What a waiter knows. -/
inductive Waiter.Signal where
  | pending
  | woken
  /-- Nobody is left to wake the waiter. -/
  | lost
deriving DecidableEq, Repr, Inhabited

/-- Somebody who waits for an id. -/
structure Waiter where
  id : Id
  /-- Whether the waiter still listens. -/
  listening : Bool := true
  signal : Waiter.Signal := .pending
deriving DecidableEq, Repr, Inhabited

/-- Give a waiter its signal; one that no longer listens does not get it. -/
def Waiter.wake (w : Waiter) : Waiter := if w.listening then { w with signal := .woken } else w

namespace Notifier

/-- What a caller asks of the notifier. -/
inductive Request where
  | watch (id : Id) (waiter : Nat)
  /-- A waiter of `id` stopped listening without having been woken. -/
  | release (id : Id)
deriving DecidableEq, Repr, Inhabited

/-- Where the notifier stands. -/
inductive Phase where
  /-- Ready for the next request or message. -/
  | idle
  /-- A watch of `id` was registered and is to be checked. -/
  | checking (id : Id)
  /-- The ids of `todo` are to be checked; `woken` were found finished. -/
  | reconciling (todo : List Id) (woken : Nat)
  | stopped
deriving DecidableEq, Repr, Inhabited

end Notifier

/-- The notifier of one cache. -/
structure Notifier where
  keys : Keys
  /-- The number of its feed in the store. -/
  feed : Nat
  /-- Requests not yet taken, oldest first. -/
  requests : List Notifier.Request := []
  /-- All waiters that ever were; a waiter is known by its place. -/
  waiters : List Waiter := []
  /-- The waiters registered for each watched id. -/
  watchers : Std.ExtTreeMap Id (List Nat) := ∅
  phase : Notifier.Phase := .idle
  /-- The number of watched ids that is shown outside. -/
  watching : Nat := 0
deriving DecidableEq

namespace Notifier

instance : Inhabited Notifier := ⟨⟨default, 0, [], [], ∅, .idle, 0⟩⟩

/-- Whether the notifier has ended. -/
def ended (n : Notifier) : Bool := n.phase == .stopped

/-! ### What callers do -/

/-- Ask to be woken for an id; gives the number of the new waiter. -/
def subscribe? (n : Notifier) (id : Id) : Option (Nat × Notifier) :=
  if n.ended then none
  else
    let w := n.waiters.length
    some (w, { n with waiters := n.waiters ++ [{ id }], requests := n.requests ++ [.watch id w] })

/-- Tell that a waiter of an id stopped listening. -/
def release (n : Notifier) (id : Id) : Notifier :=
  if n.ended then n else { n with requests := n.requests ++ [.release id] }

/-- Stop listening. -/
def leave (n : Notifier) (waiter : Nat) : Notifier :=
  { n with waiters := n.waiters.modify waiter fun w => { w with listening := false } }

/-- What a waiter knows. -/
def signal (n : Notifier) (waiter : Nat) : Waiter.Signal :=
  match n.waiters[waiter]? with
  | some w => w.signal
  | none => .lost

/-! ### The watched ids -/

/-- Whether a waiter still listens. -/
def listens (n : Notifier) (waiter : Nat) : Bool :=
  match n.waiters[waiter]? with
  | some w => w.listening
  | none => false

/-- Register a waiter for an id and forget those of the id that no longer listen. -/
def register (n : Notifier) (id : Id) (waiter : Nat) : Notifier :=
  { n with watchers :=
      n.watchers.insert id ((n.watchers.getD id []).filter n.listens ++ [waiter]) }

/-- Forget the waiters of an id that no longer listen, and the id if none is left. -/
def forget (n : Notifier) (id : Id) : Notifier :=
  match n.watchers[id]? with
  | none => n
  | some ws =>
    match ws.filter n.listens with
    | [] => { n with watchers := n.watchers.erase id }
    | live => { n with watchers := n.watchers.insert id live }

/-- Forget all waiters that no longer listen, and the ids for which none is left. -/
def prune (n : Notifier) : Notifier :=
  { n with watchers := n.watchers.filterMap fun _ ws =>
      match ws.filter n.listens with
      | [] => none
      | live => some live }

/-- Wake the waiters of an id. -/
def wake (n : Notifier) (id : Id) : Notifier × List Event :=
  match n.watchers[id]? with
  | none => (n, [])
  | some ws =>
    ({ n with
        watchers := n.watchers.erase id
        waiters := ws.foldl (fun all w => all.modify w Waiter.wake) n.waiters },
      [.waking n.keys.name id ws.length])

/-- Show the number of watched ids and get ready for the next request or message. -/
def settle (n : Notifier) : Notifier := { n with phase := .idle, watching := n.watchers.size }

/-- End: what was not taken is dropped, and who was not woken never will be. -/
def stop (n : Notifier) : Notifier :=
  { n with
    phase := .stopped
    requests := []
    watchers := ∅
    waiters := n.waiters.map fun w =>
      if w.signal = .pending then { w with signal := .lost } else w }

/-! ### Steps -/

/-- What the notifier does next. -/
inductive Move where
  /-- See the stop signal. -/
  | stop
  /-- Take a request. -/
  | request
  /-- Take a message off the channel. -/
  | message
  /-- Find the channel closed. -/
  | hangUp
  /-- Ask the store whether an id is finished. -/
  | check (id : Id)
  /-- Finish reconciling. -/
  | conclude
deriving DecidableEq, Repr

/-- Take the first request. -/
def takeRequest? (n : Notifier) : Option Notifier :=
  match n.phase, n.requests with
  | .idle, .watch id w :: rest =>
    some { ({ n with requests := rest }.register id w) with phase := .checking id }
  | .idle, .release id :: rest => some ({ n with requests := rest }.forget id).settle
  | _, _ => none

/-- Act on a message of the channel. -/
def receive (n : Notifier) (message : String) : Notifier × List Event :=
  if message.isEmpty then
    let n := n.prune
    ({ n with phase := .reconciling n.watchers.keys 0 }, [.reconnected n.keys.name])
  else
    let (n, events) := n.wake message
    (n.settle, events)

/-- Act on the answer to a check of `id`. -/
def checked (n : Notifier) (id : Id) (answer : Except Error Bool) : Notifier × List Event :=
  match answer with
  | .ok true => n.wake id
  | .ok false => (n, [])
  | .error e => (n, [.checkFailed n.keys.name id e])

/-- Whether the check of an id is due. -/
def due (n : Notifier) (id : Id) : Bool :=
  match n.phase with
  | .checking i => i == id
  | .reconciling todo _ => todo.contains id
  | _ => false

/-- Go on after the check of an id. -/
def afterCheck (n : Notifier) (id : Id) (answer : Except Error Bool) : Notifier × List Event :=
  let (m, events) := n.checked id answer
  match n.phase with
  | .reconciling todo woken =>
    let found := match answer with | .ok true => 1 | _ => 0
    ({ m with phase := .reconciling (todo.erase id) (woken + found) }, events)
  | _ => (m.settle, events)

/-- One step of a notifier over a store.  `stopping` is the stop signal of its cache, and a `fault`
takes the place of the store's answer. -/
def step? (n : Notifier) (s : Store) (now : Instant) (stopping : Bool) (fault : Option Error) :
    Move → Option (Notifier × Store × List Event)
  | .stop =>
    if n.phase = .idle ∧ stopping then
      some (n.stop, s.unsubscribe n.feed, [.notifierStopped n.keys.name])
    else none
  | .request => n.takeRequest?.map fun n => (n, s, [])
  | .message =>
    if n.phase = .idle then
      (s.receive? n.feed).map fun (message, s) =>
        let (n, events) := n.receive message
        (n, s, events)
    else none
  | .hangUp =>
    if n.phase = .idle ∧ s.feedEnded n.feed then
      some (n.stop, s.unsubscribe n.feed,
        [.channelClosed n.keys.name, .notifierStopped n.keys.name])
    else none
  | .check id =>
    if n.due id then
      match fault with
      | some e =>
        let (n, events) := n.afterCheck id (.error e)
        some (n, s, events)
      | none =>
        let (finished, s) := s.isFinished n.keys id now
        let (n, events) := n.afterCheck id (.ok finished)
        some (n, s, events)
    else none
  | .conclude =>
    match n.phase with
    | .reconciling [] woken =>
      some (n.settle, s, [.reconciled n.keys.name (n.watchers.size + woken) woken])
    | _ => none

end Notifier

end ReadThrough
