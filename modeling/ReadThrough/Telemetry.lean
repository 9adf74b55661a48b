import ReadThrough.Error
import ReadThrough.Json
import ReadThrough.Task

/-! # Telemetry

What the cache reports about itself.  Everything reported is an `Event`; its two views are the log
entries (`Event.entries`) and the metric samples (`Event.samples`) that it stands for. -/

namespace ReadThrough

/-- How severe a log entry is. -/
inductive Level where
  | trace
  | debug
  | info
  | warn
  | error
deriving DecidableEq, Repr, Inhabited

namespace Level

/-- The name of a level. -/
def name : Level → String
  | trace => "TRACE"
  | debug => "DEBUG"
  | info => "INFO"
  | warn => "WARN"
  | error => "ERROR"

/-- The level of a name. -/
def ofName? (s : String) : Option Level :=
  [trace, debug, info, warn, error].find? (·.name == s)

/-- The more severe, the higher. -/
def severity : Level → Nat
  | trace => 0
  | debug => 1
  | info => 2
  | warn => 3
  | error => 4

end Level

/-- What a log entry is about: something that happened, the start of a span, or a later field of a
span. -/
inductive EntryKind where
  | event
  | span
  | record
deriving DecidableEq, Repr, Inhabited

namespace EntryKind

/-- The name of a kind. -/
def name : EntryKind → String
  | event => "event"
  | span => "span"
  | record => "record"

end EntryKind

/-- One entry of the log.  Only spans have a name. -/
structure LogEntry where
  kind : EntryKind
  level : Level
  span : Option String
  fields : List (String × Json)

namespace LogEntry

/-- An entry as JSON. -/
def toJson (e : LogEntry) : Json :=
  .object [("kind", .string e.kind.name), ("level", .string e.level.name),
    ("name", match e.span with | some n => .string n | none => .null),
    ("fields", .object e.fields)]

end LogEntry

/-- The instruments of the meter. -/
inductive Metric where
  | cacheRequests
  | queueOperations
  | tasksCompleted
  | taskDuration
  | reconnects
deriving DecidableEq, Repr, Inhabited

namespace Metric

/-- The name under which a metric is exported. -/
def name : Metric → String
  | cacheRequests => "rtcache.cache.requests"
  | queueOperations => "rtcache.queue.operations"
  | tasksCompleted => "rtcache.task.completed"
  | taskDuration => "rtcache.task.duration_ms"
  | reconnects => "rtcache.notifier.reconnects"

/-- What a metric counts. -/
def description : Metric → String
  | cacheRequests => "Number of read-through cache lookups"
  | queueOperations => "Number of task queue operations"
  | tasksCompleted => "Number of computations written back to the store"
  | taskDuration => "Computation duration in milliseconds"
  | reconnects => "Number of pub/sub (re)connections reconciled"

/-- The unit of a metric. -/
def unit : Metric → String
  | taskDuration => "ms"
  | _ => ""

end Metric

/-- One count of a metric under its labels. -/
structure Sample where
  metric : Metric
  labels : List (String × String)
deriving DecidableEq, Repr

/-- How a lookup of the cache ended. -/
inductive RequestResult where
  | hit
  | miss
  | error
deriving DecidableEq, Repr, Inhabited

namespace RequestResult

/-- The label of a result. -/
def label : RequestResult → String
  | hit => "hit"
  | miss => "miss"
  | error => "error"

end RequestResult

/-- How a computation ended. -/
inductive TaskOutcome where
  | ok
  | error
deriving DecidableEq, Repr, Inhabited

namespace TaskOutcome

/-- The label of an outcome. -/
def label : TaskOutcome → String
  | ok => "ok"
  | error => "error"

end TaskOutcome

/-- Whether a completion carries a value. -/
def Completion.outcome : Completion → TaskOutcome
  | .value _ => .ok
  | .failure .. => .error

/-- Something that happened.  The first argument names the queue. -/
inductive Event where
  | enqueued (queue : String) (id : Id) (priority : Priority) (outcome : Enqueued)
  | dequeued (queue : String) (task : Claim)
  | dequeuedNothing (queue : String)
  | completed (queue : String) (outcome : TaskOutcome)
  | poolStarted (queue : String) (workers : Nat)
  | cacheStarted (queue : String) (workers : Nat)
  | cacheShutDown (queue : String)
  | waitFailed (queue : String) (error : Error)
  | dequeueFailed (queue : String) (error : Error)
  | workersGone (queue : String) (id : Id)
  | loopStopped (queue : String)
  | workerStopped (queue : String) (worker : Nat)
  | abandoned (worker : Nat) (id : Id)
  | taskStarted (queue : String) (id : Id) (priority : Priority)
  | computationFailed (queue : String) (id : Id) (message : String)
  | taskFinished (queue : String) (outcome : TaskOutcome)
  | writeFailed (queue : String) (id : Id) (error : Error)
  | checkFailed (queue : String) (id : Id) (error : Error)
  | waking (queue : String) (id : Id) (waiters : Nat)
  | reconnected (queue : String)
  | reconciled (queue : String) (watched woken : Nat)
  | channelClosed (queue : String)
  | notifierStopped (queue : String)
  | requestAnswered (queue : String) (result : RequestResult)
  | wokenWithoutResult (queue : String) (id : Id)
  | gaveUp (queue : String) (id : Id) (waited : Duration)
  | backgroundFailed (queue : String) (reason : String)
deriving DecidableEq, Repr

namespace Event

/-- A log entry without a span. -/
def entry (level : Level) (message : String) (fields : List (String × Json)) : LogEntry :=
  ⟨.event, level, none, ("message", .string message) :: fields⟩

/-- The name of the span around a computation. -/
def taskSpan : String := "task.compute"

/-- The span that a computation opens. -/
def taskSpanStart (queue : String) (id : Id) (priority : Priority) : LogEntry :=
  ⟨.span, .info, some taskSpan,
    [("task.queue", .string queue), ("task.id", .string id), ("task.priority", .int priority)]⟩

/-- What is recorded when a computation ends: a field of its span and an event. -/
def taskSpanEnd (outcome : String) : List LogEntry :=
  [⟨.record, .info, some taskSpan, [("task.outcome", .string outcome)]⟩,
    entry .debug "task finished" [("outcome", .string outcome)]]

/-- The log entries of an event. -/
def entries : Event → List LogEntry
  | enqueued q id p o =>
    [entry .debug "enqueue" [("queue", .string q), ("id", .string id), ("priority", .int p),
      ("outcome", .string o.name)]]
  | dequeued q t =>
    [entry .debug "dequeue" [("queue", .string q), ("id", .string t.id),
      ("priority", .int t.priority), ("remaining", .nat t.remaining)]]
  | dequeuedNothing _ => []
  | completed _ _ => []
  | poolStarted q n =>
    [entry .info "worker pool started" [("queue", .string q), ("workers", .nat n)]]
  | cacheStarted q n =>
    [entry .info "read-through cache started" [("queue", .string q), ("workers", .nat n)]]
  | cacheShutDown q => [entry .info "read-through cache shut down" [("queue", .string q)]]
  | waitFailed q e =>
    [entry .error ("error waiting for work: " ++ e.message) [("queue", .string q)]]
  | dequeueFailed q e =>
    [entry .error ("error dequeuing work: " ++ e.message) [("queue", .string q)]]
  | workersGone q id =>
    [entry .warn "workers are gone, claimed task stays in progress"
      [("queue", .string q), ("id", .string id)]]
  | loopStopped q => [entry .debug "dequeue loop stopped" [("queue", .string q)]]
  | workerStopped q k =>
    [entry .debug "worker stopped" [("queue", .string q), ("worker", .nat k)]]
  | abandoned k id =>
    [entry .warn "abandoning computation on shutdown, it stays in progress"
      [("worker", .nat k), ("id", .string id)]]
  | taskStarted q id p => [taskSpanStart q id p]
  | computationFailed q id m =>
    [entry .warn "computation failed"
      [("queue", .string q), ("id", .string id), ("error", .string m)]]
  | taskFinished _ o => taskSpanEnd o.label
  | writeFailed q id e =>
    [entry .error ("error writing result to store: " ++ e.message)
      [("queue", .string q), ("id", .string id)]]
  | checkFailed q id e =>
    [entry .warn ("unable to check if finished: " ++ e.message)
      [("queue", .string q), ("id", .string id)]]
  | waking q id n =>
    [entry .debug "waking waiters"
      [("queue", .string q), ("id", .string id), ("waiters", .nat n)]]
  | reconnected _ => []
  | reconciled q watched woken =>
    [entry .info "reconciled after (re)connect"
      [("queue", .string q), ("watched", .nat watched), ("woken", .nat woken)]]
  | channelClosed q => [entry .error "completion channel closed" [("queue", .string q)]]
  | notifierStopped q => [entry .debug "notifier stopped" [("queue", .string q)]]
  | requestAnswered _ _ => []
  | wokenWithoutResult q id =>
    [entry .error "woken but no result stored" [("queue", .string q), ("id", .string id)]]
  | gaveUp q id d =>
    [entry .warn "gave up waiting for result"
      [("queue", .string q), ("id", .string id), ("waited", .string d.text)]]
  | backgroundFailed q r =>
    [entry .error ("background task failed: " ++ r) [("queue", .string q)]]

/-- A count of a queue operation. -/
def operation (queue name : String) : Sample :=
  ⟨.queueOperations, [("operation", name), ("queue", queue)]⟩

/-- The metric samples of an event. -/
def samples : Event → List Sample
  | enqueued q _ _ .queued => [operation q "enqueue"]
  | enqueued q _ _ .inProgress => [operation q "enqueue_in_progress"]
  | enqueued q _ _ .resolved => [operation q "enqueue_resolved"]
  | dequeued q _ => [operation q "dequeue"]
  | dequeuedNothing q => [operation q "dequeue_empty"]
  | completed q .ok => [operation q "complete"]
  | completed q .error => [operation q "complete_error"]
  | taskFinished q o =>
    [⟨.tasksCompleted, [("outcome", o.label), ("queue", q)]⟩, ⟨.taskDuration, [("queue", q)]⟩]
  | reconnected q => [⟨.reconnects, [("queue", q)]⟩]
  | requestAnswered q r => [⟨.cacheRequests, [("queue", q), ("result", r.label)]⟩]
  | _ => []

end Event

/-- How often a sample occurs in what happened. -/
def Sample.count (sample : Sample) (events : List Event) : Nat :=
  (events.flatMap Event.samples).count sample

end ReadThrough
