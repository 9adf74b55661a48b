import ReadThrough.Error

/-! # Settings

The tunables of one cache and the conditions they have to meet (`Settings.validate`). -/

namespace ReadThrough

/-- The settings of one cache. -/
structure Settings where
  queue : String := "default"
  workers : Nat := 4
  /-- How long a failure is kept. -/
  errorTtl : Duration := .ofSecs 10
  /-- How long a caller waits at most, if there is a limit. -/
  waitTimeout : Option Duration := some (.ofSecs 300)
  /-- How long the dequeue loop waits for a marker before it looks anyway. -/
  pollTimeout : Duration := .ofSecs 1
deriving DecidableEq, Repr

namespace Settings

instance : Inhabited Settings := ⟨{}⟩

/-- The keys of the queue. -/
def keys (s : Settings) : Keys := ⟨s.queue⟩

/-- What makes settings unusable, if anything; the queue name is looked at first. -/
def problem? (s : Settings) : Option SettingsProblem :=
  if s.queue.isEmpty then some .emptyQueueName
  else if s.errorTtl.isZero then some .noErrorTtl
  else if s.pollTimeout.isZero then some .noPollTimeout
  else none

/-- The settings themselves, if they can be used. -/
def validate (s : Settings) : Except Error Settings :=
  match s.problem? with
  | some p => .error (.config p)
  | none => .ok s

end Settings

end ReadThrough
