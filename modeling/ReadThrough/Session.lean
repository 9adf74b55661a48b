import ReadThrough.Session.Schedule

/-! # Sessions

A session performs scripted steps on one store, one after the other, and answers each.

* **Steps** (`Step`).  Operations on queues, interference, calls in the background, caches, bare
  notifiers and what they report.
* **Answers.**  Every step is answered by a JSON value; a step that may take time also tells how
  many milliseconds have passed since the start.
* **Names.**  Callers, subscriptions, caches, notifiers and waiters are known by the names that the
  steps give them; the latest use of a name counts. -/

namespace ReadThrough.Session

/-- What a caller wants to have. -/
inductive Wanted where
  | value
  | bytes
  /-- Nothing but the computation. -/
  | presence
deriving DecidableEq, Repr

/-- A call that may block. -/
inductive Blocking where
  | wait (queue : String) (timeout : Duration)
  | get (cache : String) (id : Id) (priority : Priority) (wanted : Wanted)
  | shutdown (cache : String)
  | sleep (span : Duration)

/-- How a cache is to be started. -/
structure CacheOrder where
  name : String
  settings : Settings
  kind : ValueKind
  script : Option Script

/-- One step of a session. -/
inductive Step where
  | enqueue (queue : String) (id : Id) (priority : Priority)
  | dequeue (queue : String)
  | complete (queue : String) (id : Id) (completion : Completion)
  | lookup (queue : String) (id : Id)
  | isFinished (queue : String) (id : Id)
  | queued (queue : String) (max : Nat)
  | inProgress (queue : String)
  | pending (queue : String)
  | name (queue : String)
  | subscribe (handle channel : String)
  | recv (handle : String)
  | unsubscribe (handle : String)
  | disconnect
  | reconnect
  | closeChannels
  | fault (method : Method) (fault : Fault)
  | hook (method : Method) (hook : Hook)
  | call (what : Blocking)
  | many (calls : List Blocking)
  | spawn (handle : String) (what : Blocking)
  | poll (handle : String)
  | join (handle : String)
  | cancel (handle : String)
  | cache (order : CacheOrder)
  | drop (cache : String)
  | info (cache : String) (max : Nat)
  | openGate (gate : String) (permits : Nat)
  | calls
  | logs (level : Level)
  | metrics
  | notifier (handle queue : String)
  | watch (handle waiter : String) (id : Id)
  | watched (waiter : String)
  | unwatch (waiter : String)
  | release (handle : String) (id : Id)
  | watching (handle : String)
  | stop (handle : String)

/-- A call that has been started. -/
structure Running where
  /-- Its task; none for a plain sleep. -/
  task : Option Task
  wakeup : Instant := 0
  kind : ValueKind := .json
  wanted : Wanted := .presence

/-- A waiter of a bare notifier. -/
structure Watcher where
  notifier : Nat
  waiter : Nat
  /-- Whether its waking was reported. -/
  reported : Bool := false

/-- The state of a session. -/
structure Desk where
  state : State := {}
  handles : List (String × Running) := []
  feeds : List (String × Nat) := []
  caches : List (String × Nat) := []
  notifiers : List (String × Nat) := []
  watchers : List (String × Watcher) := []
  /-- How many events the log has shown or discarded. -/
  logged : Nat := 0
  /-- Whether metrics are collected. -/
  metered : Bool := false

/-! ### Answers -/

/-- The answer that all went well. -/
def done : Json := .string "ok"

/-- An error as an answer; the text of a codec's error is not part of it. -/
def errorAnswer (e : Error) : Json :=
  match e with
  | .codec _ => .object [("error", .string e.kind)]
  | .store _ => .object [("error", .string e.kind)]
  | e => .object [("error", .string e.kind), ("message", .string e.message)]

/-- What is answered when a step breaks off. -/
def panicAnswer (message : String) : Json :=
  .object [("error", .string "panic"), ("message", .string message)]

/-- An answer, or the error in its place. -/
def answerWith {α : Type} (f : α → Json) : Except Error α → Json
  | .ok v => f v
  | .error e => errorAnswer e

/-- A list of texts as JSON. -/
def texts (l : List String) : Json := .array (l.map .string)

/-- The answer to an enqueue. -/
def enqueuedAnswer (o : Enqueued) : Json :=
  .object [("outcome", .string o.name), ("already_resolved", .bool o.alreadyResolved)]

/-- The answer to a dequeue. -/
def claimAnswer : Option Claim → Json
  | none => .null
  | some t =>
    .object [("id", .string t.id), ("priority", .int t.priority), ("remaining", .nat t.remaining)]

/-- The answer to a lookup. -/
def recordAnswer : Record → Json
  | .value bytes => .object [("value", .string (Hex.text bytes))]
  | .failure m => .object [("failure", .string m)]
  | .missing => .string "missing"

/-- An object with one more field. -/
def withField (key : String) (v : Json) : Json → Json
  | .fields fs => .fields (Json.insertField key v fs)
  | j => j

namespace Desk

/-- The time of the session in milliseconds. -/
def millis (d : Desk) : Json := .nat d.state.system.now.millis

/-- An answer with the time. -/
def timed (d : Desk) (j : Json) : Json := withField "t" d.millis j

/-- Replace the system. -/
def setSystem (d : Desk) (system : System) : Desk := { d with state := { d.state with system } }

/-- Perform an action from outside. -/
def act (d : Desk) (a : Action) : Desk :=
  d.setSystem ((d.state.system.step? a).getD d.state.system)

/-- Let a task run in the background. -/
def launch (d : Desk) (ts : List Task) : Desk :=
  { d with state := { d.state with ready := d.state.ready ++ ts } }

/-- Ask the store from outside. -/
def ask {α : Type} (d : Desk) (m : Method) (f : System → Option Error → Except Error α × System) :
    Except Error α × Desk :=
  let (fault, state) := d.state.consult m
  let (r, system) := f state.system fault
  (r, { d with state := { state with system } })

/-- Ask the store for something that leaves it unchanged. -/
def view {α : Type} (d : Desk) (m : Method) (f : Store → α) : Except Error α × Desk :=
  d.ask m fun s fault => match fault with
    | some e => (.error e, s)
    | none => (.ok (f s.store), s)

/-! ### Blocking calls -/

/-- Start a call; none if it names an unknown cache. -/
def start? (d : Desk) : Blocking → Option (Running × Desk)
  | .wait queue timeout =>
    some ({ task := some (.seeker d.state.system.seekers.length) }, d.act (.seek ⟨queue⟩ timeout))
  | .get cache id priority wanted => do
    let i ← d.caches.lookup cache
    let m := (d.state.members[i]?).getD {}
    some ({ task := some (.call d.state.system.calls.length), kind := m.kind, wanted },
      d.act (.get i id priority))
  | .shutdown cache => do
    let i ← d.caches.lookup cache
    some ({ task := some (.closing d.state.system.closings.length) }, d.act (.shutdown i))
  | .sleep span => some ({ task := none, wakeup := d.state.system.now + span.nanos }, d)

/-- The bytes of a lookup as its caller wanted them. -/
def presented (r : Running) (bytes : Bytes) : Json :=
  match r.wanted with
  | .value => answerWith (fun v => .object [("value", v)]) (r.kind.present bytes)
  | .bytes => .object [("bytes", .string (Hex.text bytes))]
  | .presence => .object [("ok", .bool true)]

/-- The result of a call, none if it has not ended. -/
def result? (d : Desk) (r : Running) : Option Json :=
  match r.task with
  | none => if r.wakeup ≤ d.state.system.now then some (.object []) else none
  | some (.call j) => do
    let x ← d.state.system.calls[j]?
    match ← x.result? with
    | .ok bytes => some (presented r bytes)
    | .error e => some (errorAnswer e)
  | some (.seeker j) => do
    match (← d.state.system.seekers[j]?).phase with
    | .finished work => some (.object [("work", .bool work)])
    | .refused e => some (errorAnswer e)
    | .crashed => some (panicAnswer Instant.overflowText)
    | _ => none
  | some t => if d.state.taskEnded t then some (.object []) else none

/-- What the foreground waits for when it runs a call itself. -/
def item (r : Running) : State.Item :=
  match r.task with
  | some t => .task t
  | none => .until r.wakeup

/-- Drop a call. -/
def abandon (d : Desk) (r : Running) : Desk :=
  match r.task with
  | some (.call j) =>
    let d := d.act (.cancel j)
    { d with state := d.state.dropUnheld }
  | some (.seeker j) => d.act (.cancelSeeker j)
  | some (.closing j) => d.act (.cancelClosing j)
  | _ => d

/-- The answer when a step has not ended in time. -/
def hangAnswer : Json := .object [("hang", .bool true)]

/-- Whether a result tells of a crash. -/
def isCrash (j : Json) : Bool :=
  match j.get? "error" with
  | some (.string k) => k == "panic"
  | _ => false

/-- Start calls, one after the other. -/
def startAll (d : Desk) : List Blocking → Option (List Running × Desk)
  | [] => some ([], d)
  | b :: rest => do
    let (r, d) ← d.start? b
    let (rs, d) ← d.startAll rest
    some (r :: rs, d)

/-- Run calls in the foreground until all have ended. -/
def perform (d : Desk) (rs : List Running) : Bool × Desk :=
  let (ended, state) := d.state.await (rs.map item)
  let d := { d with state }
  if ended then (true, d) else (false, rs.foldl abandon d)

/-- Wait for a call that runs in the background. -/
def attend (d : Desk) (r : Running) : Bool × Desk :=
  let items := match r.task with
    | some t => [State.Item.ending t]
    | none => [.until r.wakeup]
  let (ended, state) := d.state.await items
  (ended, { d with state })

/-! ### Caches -/

/-- Let go of a cache; it stops when no call runs on it any more. -/
def letGo (d : Desk) (i : Nat) : Desk :=
  let state := { d.state with leaving := d.state.leaving ++ [i] }
  { d with state := state.dropUnheld }

/-- Start a cache. -/
def startCache (d : Desk) (o : CacheOrder) : Json × Desk :=
  let computes := o.script.isSome
  -- The store is not asked when the settings are refused.
  match System.refusal? o.settings computes with
  | some e => (errorAnswer e, d)
  | none =>
    let i := d.state.system.caches.length
    match d.ask .subscribe fun s fault => s.openCache o.settings computes fault with
    | (.error e, d) => (errorAnswer e, d)
    | (.ok (.crashed message), d) => (panicAnswer message, d)
    | (.ok (.running _), d) =>
      let member : Member := { kind := o.kind, script := o.script.getD {} }
      let d := { d with state := { d.state with members := d.state.members ++ [member] } }
      let pool := if computes then
          Task.loop i :: (List.range o.settings.workers).map (Task.worker i)
        else []
      let d := d.launch (.notifier i :: pool)
      let d := match d.caches.lookup o.name with
        | some old => d.letGo old
        | none => d
      (done, { d with caches := State.put o.name i d.caches })

/-- What a cache tells about itself. -/
def info (d : Desk) (i max : Nat) : Json × Desk :=
  match d.state.system.caches[i]? with
  | none => (.null, d)
  | some c =>
    let k := c.settings.keys
    match d.view .queued fun s => s.queued k max with
    | (.error e, d) => (errorAnswer e, d)
    | (.ok queued, d) =>
      match d.view .inProgress fun s => s.inProgress k with
      | (.error e, d) => (errorAnswer e, d)
      | (.ok inProgress, d) =>
        match d.view .pending fun s => s.pending k with
        | (.error e, d) => (errorAnswer e, d)
        | (.ok pending, d) =>
          (.object [("queue_name", .string c.settings.queue), ("workers", .nat c.workers),
            ("watching", .nat c.notifier.watching), ("queued", texts queued),
            ("in_progress", texts inProgress), ("pending", .nat pending)], d)

/-! ### Reports -/

/-- Log entries as JSON, in the order of their texts. -/
def sortedEntries (es : List LogEntry) : Json :=
  let lines := es.map fun e => (e.toJson.text, e.toJson)
  .array ((lines.mergeSort fun a b => a.1 ≤ b.1).map (·.2))

/-- The log since it was last shown. -/
def logs (d : Desk) (level : Level) : Json × Desk :=
  let events := d.state.system.events
  let fresh := (events.take (events.length - d.logged)).reverse
  let shown := (fresh.flatMap Event.entries).filter fun e => level.severity ≤ e.level.severity
  (sortedEntries shown, { d with logged := events.length })

/-- The labels of a sample as JSON. -/
def labels (s : Sample) : Json := .object (s.labels.map fun (k, v) => (k, .string v))

/-- All counts so far, in the order of names and labels. -/
def metrics (d : Desk) : Json :=
  let samples := d.state.system.events.flatMap Event.samples
  let kinds := samples.eraseDups
  let rows := kinds.map fun s => (s.metric.name, (labels s).text, s)
  let sorted := rows.mergeSort fun a b => a.1 < b.1 || (a.1 == b.1 && a.2.1 ≤ b.2.1)
  .array (sorted.map fun (_, _, s) =>
    .object [("name", .string s.metric.name), ("labels", labels s),
      ("count", .nat (samples.count s)), ("unit", .string s.metric.unit),
      ("description", .string s.metric.description)])

/-! ### Notifiers -/

/-- What a waiter sees. -/
def watched (d : Desk) (name : String) : Json × Desk :=
  match d.watchers.lookup name with
  | none => (.string "none", d)
  | some w =>
    match d.state.system.caches[w.notifier]? with
    | none => (.string "none", d)
    | some c =>
      match c.notifier.signal w.waiter with
      | .pending => (.string "pending", d)
      | .lost => (.string "closed", d)
      | .woken =>
        if w.reported then (.string "closed", d)
        else
          (.string "woken",
            { d with watchers := State.put name { w with reported := true } d.watchers })

/-- Forget a waiter. -/
def unwatch (d : Desk) (name : String) : Bool × Desk :=
  match d.watchers.lookup name with
  | none => (false, d)
  | some w =>
    let d := d.act (.leave w.notifier w.waiter)
    (true, { d with watchers := d.watchers.filter fun p => !(p.1 == name) })

/-- The answer for a name that is not known. -/
def unknown (what : String) : Json := panicAnswer ("unknown " ++ what)

/-- Perform a step and give its answer, before the background comes to rest. -/
def answer (d : Desk) : Step → Json × Desk
  | .enqueue q id p =>
    let (r, d) := d.ask .enqueue fun s fault => s.enqueue ⟨q⟩ id p fault
    (answerWith enqueuedAnswer r, d)
  | .dequeue q =>
    let (r, d) := d.ask .dequeue fun s fault => s.dequeue ⟨q⟩ fault
    (answerWith claimAnswer r, d)
  | .complete q id c =>
    let (r, d) := d.ask .complete fun s fault => s.complete ⟨q⟩ id c fault
    (answerWith (fun went => if went then done else panicAnswer Instant.overflowText) r, d)
  | .lookup q id =>
    let (r, d) := d.ask .lookup fun s fault => s.lookup ⟨q⟩ id fault
    (answerWith recordAnswer r, d)
  | .isFinished q id =>
    let (r, d) := d.ask .isFinished fun s fault => s.isFinished ⟨q⟩ id fault
    (answerWith .bool r, d)
  | .queued q n =>
    let (r, d) := d.view .queued fun s => s.queued ⟨q⟩ n
    (answerWith texts r, d)
  | .inProgress q =>
    let (r, d) := d.view .inProgress fun s => s.inProgress ⟨q⟩
    (answerWith texts r, d)
  | .pending q =>
    let (r, d) := d.view .pending fun s => s.pending ⟨q⟩
    (answerWith .nat r, d)
  | .name q => (.object [("name", .string q), ("queue_key", .string (Keys.queue ⟨q⟩))], d)
  | .subscribe h channel =>
    match d.ask .subscribe fun s fault => s.subscribe channel fault with
    | (.error e, d) => (errorAnswer e, d)
    | (.ok feed, d) =>
      let d := match d.feeds.lookup h with
        | some old => d.act (.unsubscribe old)
        | none => d
      (done, { d with feeds := State.put h feed d.feeds })
  | .recv h =>
    match d.feeds.lookup h with
    | none => (unknown "handle", d)
    | some feed =>
      match d.state.system.store.feeds[feed]? with
      | none => (unknown "handle", d)
      | some f =>
        let feeds := d.state.system.store.feeds.set feed { f with inbox := [] }
        (.object [("messages", texts f.inbox), ("closed", .bool f.closed)],
          d.setSystem { d.state.system with store := { d.state.system.store with feeds } })
  | .unsubscribe h =>
    match d.feeds.lookup h with
    | none => (.bool false, d)
    | some feed =>
      let d := d.act (.unsubscribe feed)
      (.bool true, { d with feeds := d.feeds.filter fun p => !(p.1 == h) })
  | .disconnect => (done, d.act .disconnect)
  | .reconnect => (done, d.act .reconnect)
  | .closeChannels => (done, d.act .closeFeeds)
  | .fault m f =>
    (done, { d with state := { d.state with faults := State.put m f d.state.faults } })
  | .hook m h =>
    (done, { d with state := { d.state with hooks := State.put m h d.state.hooks } })
  | .call b =>
    match d.start? b with
    | none => (unknown "cache", d)
    | some (r, d) =>
      let (ended, d) := d.perform [r]
      if ended then
        let j := (d.result? r).getD .null
        (if isCrash j then j else d.timed j, d)
      else (hangAnswer, d)
  | .many bs =>
    match d.startAll bs with
    | none => (unknown "cache", d)
    | some (rs, d) =>
      let (ended, d) := d.perform rs
      if ended then
        (d.timed (.object [("answers", .array (rs.map fun r => (d.result? r).getD .null))]), d)
      else (hangAnswer, d)
  | .spawn h b =>
    match d.start? b with
    | none => (unknown "cache", d)
    | some (r, d) =>
      let d := d.launch r.task.toList
      (done, { d with handles := State.put h r d.handles })
  | .poll h =>
    match d.handles.lookup h with
    | none => (unknown "handle", d)
    | some r =>
      match d.result? r with
      | none => (.string "pending", d)
      | some j => (j, { d with handles := d.handles.filter fun p => !(p.1 == h) })
  | .join h =>
    match d.handles.lookup h with
    | none => (unknown "handle", d)
    | some r =>
      let d := { d with handles := d.handles.filter fun p => !(p.1 == h) }
      let (ended, d) := d.attend r
      if ended then (d.timed ((d.result? r).getD .null), d) else (hangAnswer, d)
  | .cancel h =>
    match d.handles.lookup h with
    | none => (unknown "handle", d)
    | some r =>
      let d := { d with handles := d.handles.filter fun p => !(p.1 == h) }
      match d.result? r with
      | some j => (j, d)
      | none => (.object [("cancelled", .bool true)], d.abandon r)
  | .cache o => d.startCache o
  | .drop c =>
    match d.caches.lookup c with
    | none => (.bool false, d)
    | some i =>
      (.bool true, { d.letGo i with caches := d.caches.filter fun p => !(p.1 == c) })
  | .info c n =>
    match d.caches.lookup c with
    | none => (unknown "cache", d)
    | some i => d.info i n
  | .openGate g n =>
    let gates := State.put g ((d.state.gates.lookup g).getD 0 + n) d.state.gates
    (done, { d with state := { d.state with gates } })
  | .calls =>
    (.array (d.state.calls.reverse.map fun (p, id) => .array [.int p, .string id]),
      { d with state := { d.state with calls := [] } })
  | .logs level => d.logs level
  | .metrics => (if d.metered then d.metrics else .array [], d)
  | .notifier h q =>
    let i := d.state.system.caches.length
    match d.ask .subscribe fun s fault => s.openNotifier ⟨q⟩ fault with
    | (.error e, d) => (errorAnswer e, d)
    | (.ok _, d) =>
      let members := d.state.members ++ [({ kind := .json } : Member)]
      let d := { d with state := { d.state with members } }
      let d := match d.notifiers.lookup h with
        | some old => d.act (.drop old)
        | none => d
      (done, { d.launch [.notifier i] with notifiers := State.put h i d.notifiers })
  | .watch h w id =>
    match d.notifiers.lookup h with
    | none => (unknown "handle", d)
    | some i =>
      match (d.state.system.caches[i]?).bind fun c => c.notifier.subscribe? id with
      | none => (errorAnswer .shutdown, d)
      | some (n, _) =>
        let (_, d) := (d.act (.watch i id)).unwatch w
        (done, { d with watchers := State.put w { notifier := i, waiter := n } d.watchers })
  | .watched w => d.watched w
  | .unwatch w =>
    let (existed, d) := d.unwatch w
    (.bool existed, d)
  | .release h id =>
    match d.notifiers.lookup h with
    | none => (unknown "handle", d)
    | some i => (done, d.act (.release i id))
  | .watching h =>
    match (d.notifiers.lookup h).bind fun i => d.state.system.caches[i]? with
    | none => (unknown "handle", d)
    | some c => (.nat c.notifier.watching, d)
  | .stop h =>
    match d.notifiers.lookup h with
    | none => (unknown "handle", d)
    | some i =>
      let d := d.act (.drop i)
      let d := { d with state := d.state.rest }
      (.object [("stopped", .bool (d.state.taskEnded (.notifier i)))], d)

/-- Perform a step, give its answer, and let the background come to rest. -/
def perform1 (d : Desk) (s : Step) : Json × Desk :=
  let (j, d) := d.answer s
  (j, { d with state := d.state.rest })

end Desk

/-- Perform steps one after the other and give their answers. -/
def answers : Desk → List Step → List Json
  | _, [] => []
  | d, s :: rest =>
    let (j, d) := d.perform1 s
    j :: answers d rest

/-- The answers of a new session. -/
def run (metered : Bool) (steps : List Step) : List Json := answers { metered } steps

end ReadThrough.Session
