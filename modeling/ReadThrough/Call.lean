import ReadThrough.Notifier
import ReadThrough.Settings

/-! # Lookups through the cache

One caller that wants the bytes of an id.

* **Fetching.**  The caller looks for a record, asks for the computation if there is none, and
  looks again if the id turns out to be finished meanwhile.
* **Waiting.**  It registers with the notifier and sleeps until it is woken, until the notifier is
  gone, or until its time is up; then it looks once more, and the record decides.  If there is
  none, the reason for the end of the wait becomes the error (`Call.Wake.error`).
* **Leaving.**  A caller that was not woken tells the notifier that it stopped listening, also when
  it is cancelled. -/

namespace ReadThrough

/-- How a wait ended. -/
inductive Call.Wake where
  | woken
  /-- The notifier ended. -/
  | lost
  | timedOut (limit : Duration)
deriving DecidableEq, Repr, Inhabited

/-- Where a caller stands. -/
inductive Call.Phase where
  /-- About to look for a record. -/
  | looking
  /-- About to ask for the computation. -/
  | queueing
  /-- About to register with the notifier. -/
  | subscribing
  | waiting (waiter : Nat) (deadline : Option Instant)
  /-- About to look for the record after the wait. -/
  | rereading (waiter : Nat) (wake : Call.Wake)
  | served (bytes : Bytes)
  | refused (reason : Error)
  | cancelled
deriving DecidableEq, Repr

/-- A caller of a cache. -/
structure Call where
  /-- The number of the cache. -/
  cache : Nat
  id : Id
  priority : Priority
  phase : Call.Phase := .looking
deriving DecidableEq, Repr

namespace Call

instance : Inhabited Call := ⟨{ cache := 0, id := "", priority := 0 }⟩

/-- The result of a caller that is done. -/
def result? (c : Call) : Option (Except Error Bytes) :=
  match c.phase with
  | .served bytes => some (.ok bytes)
  | .refused e => some (.error e)
  | _ => none

/-- Whether nothing more happens to a caller. -/
def ended (c : Call) : Bool :=
  match c.phase with
  | .served _ => true
  | .refused _ => true
  | .cancelled => true
  | _ => false

/-- The error of a caller who found nothing after its wait. -/
def Wake.error (id : Id) : Wake → Error
  | .woken => .unavailable id
  | .lost => .shutdown
  | .timedOut limit => .timedOut id limit

/-- What a caller reports who found nothing after its wait. -/
def Wake.events (queue : String) (id : Id) : Wake → List Event
  | .woken => [.wokenWithoutResult queue id]
  | .lost => []
  | .timedOut limit => [.gaveUp queue id limit]

/-- The caller is done, and its request is counted. -/
def answer (c : Call) (queue : String) (r : Except Error Bytes) (waited : Bool) :
    Call × List Event :=
  match r with
  | .ok bytes =>
    ({ c with phase := .served bytes }, [.requestAnswered queue (if waited then .miss else .hit)])
  | .error e => ({ c with phase := .refused e }, [.requestAnswered queue .error])

/-- Tell the notifier, after a wait that did not end by waking. -/
def Wake.release (w : Wake) (n : Notifier) (id : Id) : Notifier :=
  if w = .woken then n else n.release id

/-! ### Questions to the store -/

/-- What a caller asks the store. -/
inductive Query where
  | lookup
  | enqueue
deriving DecidableEq, Repr

/-- The question that a caller asks next, if it does not wait. -/
def query? (c : Call) : Option Query :=
  match c.phase with
  | .looking => some .lookup
  | .rereading .. => some .lookup
  | .queueing => some .enqueue
  | _ => none

/-- Go on with the answer to a lookup.  After a wait the record decides, and if there is none, the
way in which the wait ended. -/
def afterLookup (c : Call) (queue : String) (n : Notifier) (answer : Except Error Record) :
    Call × Notifier × List Event :=
  let finish (r : Except Error Bytes) (waited : Bool) (n : Notifier) (before : List Event) :
      Call × Notifier × List Event :=
    let (c, events) := c.answer queue r waited
    (c, n, before ++ events)
  match c.phase with
  | .rereading _ wake =>
    let n := wake.release n c.id
    match answer with
    | .error e => finish (.error e) true n []
    | .ok (.value bytes) => finish (.ok bytes) true n []
    | .ok (.failure m) => finish (.error (.computation c.id m)) true n []
    | .ok .missing => finish (.error (wake.error c.id)) true n (wake.events queue c.id)
  | _ =>
    match answer with
    | .error e => finish (.error e) false n []
    | .ok (.value bytes) => finish (.ok bytes) false n []
    | .ok (.failure m) => finish (.error (.computation c.id m)) false n []
    | .ok .missing => ({ c with phase := .queueing }, n, [])

/-- Go on with the answer to an enqueue. -/
def afterEnqueue (c : Call) (queue : String) (answer : Except Error Enqueued) :
    Call × List Event :=
  match answer with
  | .error e => c.answer queue (.error e) false
  | .ok outcome =>
    let next := if outcome = .resolved then Phase.looking else .subscribing
    ({ c with phase := next }, [.enqueued queue c.id c.priority outcome])

/-! ### Steps -/

/-- Go on without asking the store; there is no step while the caller has nothing to do but
wait. -/
def advance? (c : Call) (settings : Settings) (now : Instant) (n : Notifier) :
    Option (Call × Notifier × List Event) :=
  match c.phase with
  | .subscribing =>
    match n.subscribe? c.id with
    | none =>
      let (c, events) := c.answer settings.queue (.error .shutdown) true
      some (c, n, events)
    | some (w, n) =>
      let deadline := settings.waitTimeout.bind now.deadline
      some ({ c with phase := .waiting w deadline }, n, [])
  | .waiting w deadline =>
    match n.signal w with
    | .woken => some ({ c with phase := .rereading w .woken }, n.leave w, [])
    | .lost => some ({ c with phase := .rereading w .lost }, n.leave w, [])
    | .pending =>
      match deadline, settings.waitTimeout with
      | some t, some limit =>
        if t ≤ now then
          some ({ c with phase := .rereading w (.timedOut limit) }, n.leave w, [])
        else none
      | _, _ => none
  | _ => none

/-- One step of a caller over the notifier of its cache and the store; a `fault` takes the place of
the store's answer. -/
def step? (c : Call) (settings : Settings) (now : Instant) (fault : Option Error) (n : Notifier)
    (s : Store) : Option (Call × Notifier × Store × List Event) :=
  match c.query? with
  | some .lookup =>
    let (r, s) := s.attempt fault (·.lookup settings.keys c.id now)
    let (c, n, events) := c.afterLookup settings.queue n r
    some (c, n, s, events)
  | some .enqueue =>
    let (r, s) := s.attempt fault (·.enqueue settings.keys c.id c.priority now)
    let (c, events) := c.afterEnqueue settings.queue r
    some (c, n, s, events)
  | none => (c.advance? settings now n).map fun (c, n, events) => (c, n, s, events)

/-- The caller is dropped at any point. -/
def cancel (c : Call) (n : Notifier) : Call × Notifier :=
  let n := match c.phase with
    | .waiting w _ => (n.leave w).release c.id
    | .rereading _ wake => wake.release n c.id
    | _ => n
  ({ c with phase := if c.ended then c.phase else .cancelled }, n)

end Call

end ReadThrough
