import ReadThrough.Session.Script
import ReadThrough.System

/-! # The schedule of a session

One deterministic way to choose the next action of a system, under a clock that moves only when
nothing else can.

* **Tasks** (`Task`).  Every task of the system that is not over is ready or blocked.  The ready
  tasks run in the order in which they became so, each until it blocks; tasks that one step makes
  ready together follow each other in the order in which they had blocked (`State.wake`).
* **Lines.**  Workers that wait for a task and computations that wait at a gate are served in the
  order in which they came.
* **Interference** (`Fault`, `Hook`).  A fault lets some of the coming calls of a store method
  fail; a hook completes an id right before the next call of a method.
* **Time** (`State.await`).  The foreground runs first, then the background until it is idle; only
  then the clock moves on to the next deadline. -/

namespace ReadThrough.Session

/-- A task of the system. -/
inductive Task where
  | notifier (cache : Nat)
  | loop (cache : Nat)
  | worker (cache worker : Nat)
  | call (call : Nat)
  | seeker (seeker : Nat)
  | closing (closing : Nat)
deriving DecidableEq, Repr

/-- The methods of the store that can be interfered with. -/
inductive Method where
  | enqueue
  | dequeue
  | complete
  | lookup
  | isFinished
  | waitForWork
  | subscribe
  | queued
  | inProgress
  | pending
deriving DecidableEq, Repr

/-- The next `after` calls pass, then `times` calls fail. -/
structure Fault where
  after : Nat
  times : Nat
  message : String

/-- A completion to be applied before a call. -/
structure Hook where
  keys : Keys
  id : Id
  completion : Completion

/-- What a session knows about a cache of its system. -/
structure Member where
  kind : ValueKind := .json
  script : Script := {}
  /-- The ids of the computations so far. -/
  computed : List Id := []

/-- A computation that has begun. -/
structure Computation where
  cache : Nat
  worker : Nat
  task : Claim
  kind : ValueKind
  act : Act
  stage : Stage

/-- A system and what decides about its next action. -/
structure State where
  system : System := {}
  ready : List Task := []
  blocked : List Task := []
  /-- Workers that wait for a task, in the order in which they came. -/
  line : List (Nat × Nat) := []
  /-- Workers whose computations wait at a gate, in the order in which they came. -/
  gateLine : List (String × Nat × Nat) := []
  /-- The free permits of each gate. -/
  gates : List (String × Nat) := []
  faults : List (Method × Fault) := []
  hooks : List (Method × Hook) := []
  computations : List Computation := []
  /-- One for each cache of the system. -/
  members : List Member := []
  /-- The computations that have begun, the latest first. -/
  calls : List (Priority × Id) := []
  /-- Caches that nobody holds but the calls still running on them. -/
  leaving : List Nat := []

namespace State

/-! ### Interference -/

/-- Replace the value of a key in a list of pairs. -/
def put {κ α : Type} [BEq κ] (k : κ) (v : α) (l : List (κ × α)) : List (κ × α) :=
  (k, v) :: l.filter fun p => !(p.1 == k)

/-- Apply and remove the hook of a method. -/
def applyHook (s : State) (m : Method) : State :=
  match s.hooks.lookup m with
  | none => s
  | some h =>
    let (_, store) := s.system.store.complete h.keys h.id h.completion s.system.now
    { s with
      hooks := s.hooks.filter fun p => !(p.1 == m)
      system := { s.system with store } }

/-- The fault of the next call of a method, if it is to fail. -/
def consult (s : State) (m : Method) : Option Error × State :=
  let s := s.applyHook m
  match s.faults.lookup m with
  | none => (none, s)
  | some f =>
    if 0 < f.after then (none, { s with faults := put m { f with after := f.after - 1 } s.faults })
    else if 0 < f.times then
      (some (.other f.message), { s with faults := put m { f with times := f.times - 1 } s.faults })
    else (none, s)

/-! ### What a task can do -/

/-- A cache of the system. -/
def cache? (s : State) (i : Nat) : Option Cache := s.system.caches[i]?

/-- Where a worker stands. -/
def workerPhase? (s : State) (i k : Nat) : Option WorkerPhase := do
  let c ← s.cache? i
  let p ← c.pool
  p.workers[k]?

/-- The computation of a worker. -/
def computation? (s : State) (i k : Nat) : Option Computation :=
  s.computations.find? fun x => x.cache == i && x.worker == k

/-- Put a computation into the place of the worker's old one. -/
def setComputation (s : State) (x : Computation) : State :=
  { s with computations := x :: s.computations.filter fun y =>
      !(y.cache == x.cache && y.worker == x.worker) }

/-- The place of a worker in the line of its cache. -/
def place? (s : State) (i k : Nat) : Option Nat :=
  (s.line.filter (·.1 == i)).findIdx? (· == (i, k))

/-- Whether it is the turn of a worker that waits for a task. -/
def hasTurn (s : State) (i k : Nat) : Bool :=
  match s.cache? i with
  | some c =>
    match c.pool, s.place? i k with
    | some p, some n => n < p.channel.length || (p.channel.isEmpty && p.loop.ended)
    | _, _ => false
  | none => false

/-- Whether a permit of a gate is there for a worker. -/
def mayPass (s : State) (g : String) (i k : Nat) : Bool :=
  match (s.gateLine.filter (·.1 == g)).findIdx? (· == (g, i, k)) with
  | some n => n < (s.gates.lookup g).getD 0
  | none => false

/-- Whether nothing keeps a computation where it stands. -/
def computationFree (s : State) (x : Computation) : Bool :=
  match x.stage with
  | .sleeping t => t ≤ s.system.now
  | .atGate g => s.mayPass g x.cache x.worker
  | .ready => true

/-- The next step of a notifier. -/
def notifierMove (c : Cache) : Notifier.Move :=
  match c.notifier.phase with
  | .checking id => .check id
  | .reconciling (id :: _) _ => .check id
  | .reconciling [] _ => .conclude
  | _ =>
    if c.stopping then .stop
    else if !c.notifier.requests.isEmpty then .request
    else .message

/-- The next action of a task, to be given a fault; it need not apply. -/
def candidate (s : State) : Task → Option (Option Error → Action)
  | .notifier i => do
    let c ← s.cache? i
    let m := notifierMove c
    let m := if m = .message ∧ s.system.store.feedEnded c.notifier.feed then .hangUp else m
    some (.notifier i m)
  | .loop i => do
    let c ← s.cache? i
    let p ← c.pool
    some (.loop i (if c.stopping ∧ p.loopListens then .stop else .advance))
  | .worker i k => do
    let c ← s.cache? i
    match ← s.workerPhase? i k with
    | .receiving =>
      if c.stopping then some (.worker i k .stop)
      else if s.hasTurn i k then some (.worker i k .advance)
      else none
    | .computing _ =>
      if c.stopping then some (.worker i k .stop)
      else
        let x ← s.computation? i k
        let r := x.act.result x.kind x.task.priority x.task.id
        if x.stage = .ready then some (.worker i k (.computed r)) else none
    | _ => some (.worker i k .advance)
  | .call j => some (.call j)
  | .seeker j => some (.seeker j)
  | .closing j => some fun _ => .closing j

/-- The method of the store that the next action of a task calls. -/
def method? (s : State) : Task → Option Method
  | .notifier i => do
    match (← s.cache? i).notifier.phase with
    | .checking _ => some .isFinished
    | .reconciling (_ :: _) _ => some .isFinished
    | _ => none
  | .loop i => do
    let c ← s.cache? i
    let p ← c.pool
    match p.loop with
    | .holding => if p.hasMore ∨ c.stopping then none else some .waitForWork
    | .claiming => some .dequeue
    | _ => none
  | .worker i k => do
    match ← s.workerPhase? i k with
    | .writing .. => some .complete
    | _ => none
  | .call j => do
    match (← s.system.calls[j]?).phase with
    | .looking => some .lookup
    | .queueing => some .enqueue
    | .rereading .. => some .lookup
    | _ => none
  | .seeker j => do
    match (← s.system.seekers[j]?).phase with
    | .starting => some .waitForWork
    | _ => none
  | .closing _ => none

/-- Whether a task is over. -/
def taskEnded (s : State) : Task → Bool
  | .notifier i => match s.cache? i with
    | some c => c.notifier.ended
    | none => true
  | .loop i => match s.cache? i with
    | some c => c.taskEnded .loop
    | none => true
  | .worker i k => match s.workerPhase? i k with
    | some phase => phase.ended
    | none => true
  | .call j => match s.system.calls[j]? with
    | some x => x.ended
    | none => true
  | .seeker j => match s.system.seekers[j]? with
    | some x => x.ended
    | none => true
  | .closing j => match s.system.closings[j]? with
    | some x => x.phase = .done || x.phase = .cancelled
    | none => true

/-- Whether a task can do something now. -/
def enabled (s : State) (t : Task) : Bool :=
  match s.candidate t with
  | some a => (s.system.step? (a none)).isSome
  | none =>
    match t with
    | .worker i k =>
      match s.workerPhase? i k, s.computation? i k with
      | some (.computing _), some x => s.computationFree x
      | _, _ => false
    | _ => false

/-! ### Steps of tasks -/

/-- Let a sleeping or waiting computation go on. -/
def continueComputation (s : State) (x : Computation) : State :=
  match x.stage with
  | .sleeping _ =>
    let stage := x.act.afterSleep
    let s := match stage with
      | .atGate g => { s with gateLine := s.gateLine ++ [(g, x.cache, x.worker)] }
      | _ => s
    s.setComputation { x with stage }
  | .atGate g =>
    { s.setComputation { x with stage := .ready } with
      gates := put g ((s.gates.lookup g).getD 0 - 1) s.gates
      gateLine := s.gateLine.filter fun e => !(e.2 == (x.cache, x.worker)) }
  | .ready => s

/-- Begin the scripted computation of a task. -/
def beginComputation (s : State) (i k : Nat) (task : Claim) : State :=
  let m := (s.members[i]?).getD {}
  let act := m.script.act task.id (m.computed.count task.id)
  let stage := act.begin s.system.now
  let s := match stage with
    | .atGate g => { s with gateLine := s.gateLine ++ [(g, i, k)] }
    | _ => s
  { s.setComputation { cache := i, worker := k, task, kind := m.kind, act, stage } with
    members := s.members.set i { m with computed := task.id :: m.computed }
    calls := (task.priority, task.id) :: s.calls }

/-- Bring the lines up to date after a step of a worker. -/
def afterWorker (s : State) (i k : Nat) (before : Option WorkerPhase) : State :=
  let after := s.workerPhase? i k
  let s := match before with
    | some .receiving => { s with line := s.line.filter (· != (i, k)) }
    | some (.computing _) =>
      { s with
        computations := s.computations.filter fun y => !(y.cache == i && y.worker == k)
        gateLine := s.gateLine.filter fun e => !(e.2 == (i, k)) }
    | _ => s
  match after with
  | some .receiving => { s with line := s.line ++ [(i, k)] }
  | some (.computing task) => s.beginComputation i k task
  | _ => s

/-- Raise the stop signal of caches that nobody holds any more. -/
def dropUnheld (s : State) : State :=
  s.leaving.foldl (fun s i =>
    if s.system.calls.any fun x => x.cache == i && !x.ended then s
    else
      { s with
        system := (s.system.step? (.drop i)).getD s.system
        leaving := s.leaving.filter (· != i) }) s

/-- One step of a task, if it can do something. -/
def stepTask? (s : State) (t : Task) : Option State :=
  match s.candidate t with
  | some a => do
    guard (s.system.step? (a none)).isSome
    let (fault, s) := match s.method? t with
      | some m => s.consult m
      | none => (none, s)
    let system ← s.system.step? (a fault)
    let after := { s with system }
    match t with
    | .worker i k => some (after.afterWorker i k (s.workerPhase? i k))
    | .call _ => some after.dropUnheld
    | _ => some after
  | none =>
    match t with
    | .worker i k =>
      match s.workerPhase? i k, s.computation? i k with
      | some (.computing _), some x =>
        if s.computationFree x then some (s.continueComputation x) else none
      | _, _ => none
    | _ => none

/-- Make ready what is blocked and can do something. -/
def wake (s : State) : State :=
  let (free, kept) := s.blocked.partition s.enabled
  { s with ready := s.ready ++ free, blocked := kept }

/-- Run a task until it blocks or is over. -/
def runTask (t : Task) : Nat → State → State
  | 0, s => s
  | fuel + 1, s =>
    match s.stepTask? t with
    | some s => runTask t fuel s.wake
    | none => s

/-- Run the ready tasks until none is left. -/
def drain : Nat → State → State
  | 0, s => s
  | fuel + 1, s =>
    match s.ready with
    | [] => s
    | t :: rest =>
      let s := runTask t fuel { s with ready := rest }
      drain fuel (if s.taskEnded t then s else { s with blocked := s.blocked ++ [t] })

/-- More steps than a session takes between two deadlines. -/
def manySteps : Nat := 100000000

/-- Let the background run until only time can wake it. -/
def rest (s : State) : State := drain manySteps s.wake

/-! ### Time -/

/-- The next instant at which a blocked task can go on. -/
def deadline? (s : State) : Task → Option Instant
  | .loop i => do
    let c ← s.cache? i
    let p ← c.pool
    match p.loop with
    | .waiting w => some w.deadline
    | .pausing until? => until?
    | _ => none
  | .worker i k => do
    match ← s.workerPhase? i k, (← s.computation? i k).stage with
    | .computing _, .sleeping t => some t
    | _, _ => none
  | .call j => do
    match (← s.system.calls[j]?).phase with
    | .waiting _ deadline => deadline
    | _ => none
  | .seeker j => do
    match (← s.system.seekers[j]?).phase with
    | .waiting w => some w.deadline
    | _ => none
  | _ => none

/-- What the foreground waits for. -/
inductive Item where
  /-- A task that it runs itself. -/
  | task (task : Task)
  /-- The end of a task that runs in the background. -/
  | ending (task : Task)
  | until (wakeup : Instant)

/-- Whether there is nothing to wait for any more. -/
def itemOver (s : State) : Item → Bool
  | .task t => s.taskEnded t
  | .ending t => s.taskEnded t
  | .until t => t ≤ s.system.now

/-- Whether the foreground has something to run or nothing more to wait for. -/
def stirred (items : List Item) (s : State) : Bool :=
  items.all s.itemOver || items.any fun
    | .task t => !s.taskEnded t && s.enabled t
    | _ => false

/-- The next instant at which an item can go on. -/
def itemDeadline? (s : State) : Item → Option Instant
  | .task t => if s.taskEnded t then none else s.deadline? t
  | .ending _ => none
  | .until t => some t

/-- Run the tasks of the foreground, each until it blocks. -/
def runItems (items : List Item) (s : State) : State :=
  items.foldl (fun s item => match item with
    | .task t => runTask t manySteps s
    | _ => s) s

/-- How long the foreground waits at most. -/
def patience : Duration := .ofSecs 1000

/-- The earliest of all deadlines, on a whole millisecond. -/
def nextInstant? (items : List Item) (s : State) : Option Instant :=
  let all := items.filterMap s.itemDeadline? ++ s.blocked.filterMap s.deadline?
  (all.filter (s.system.now < ·)).min?.map Instant.tick

/-- Wait until all items are over; `false` if the patience ends before. -/
def awaitUntil (items : List Item) (limit : Instant) : Nat → State → Bool × State
  | 0, s => (false, s)
  | fuel + 1, s =>
    let s := runItems items s
    if items.all s.itemOver then (true, s)
    else
      let s := s.rest
      if stirred items s then awaitUntil items limit fuel s
      else
        match nextInstant? items s with
        | some t =>
          if t ≤ limit then
            awaitUntil items limit fuel { s with system := { s.system with now := t } }.wake
          else (false, { s with system := { s.system with now := limit } })
        | none => (false, { s with system := { s.system with now := limit } })

/-- Wait until all items are over, with the usual patience. -/
def await (items : List Item) (s : State) : Bool × State :=
  s.awaitUntil items (s.system.now + patience.nanos) manySteps

end State

end ReadThrough.Session
