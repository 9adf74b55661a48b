import ReadThrough.Store

/-! # Waiting for work

A wait for a work-ready marker, as the steps that it takes.  It first notes how many signals there
have been, then looks for a marker, and sleeps until there is a new signal or its deadline has
come.  Since the number of signals is noted before the look, an enqueue in between wakes the sleep
at once. -/

namespace ReadThrough

/-- Where a wait stands. -/
inductive Wait.Phase where
  /-- About to note the number of signals. -/
  | entering
  /-- About to look for a marker. -/
  | looking (seen : Nat)
  /-- Asleep until there are more than `seen` signals. -/
  | asleep (seen : Nat)
deriving DecidableEq, Repr, Inhabited

/-- A wait for a marker of one queue. -/
structure Wait where
  keys : Keys
  deadline : Instant
  phase : Wait.Phase := .entering
deriving DecidableEq, Repr, Inhabited

namespace Wait

/-- How far a step brought a wait. -/
inductive Progress where
  | waiting (wait : Wait)
  /-- The wait is over; `true` if it took a marker. -/
  | finished (work : Bool)
deriving DecidableEq, Repr

/-- The wait that starts now; none if the clock cannot name its deadline. -/
def start? (keys : Keys) (timeout : Duration) (now : Instant) : Option Wait :=
  (now.after? timeout).map fun deadline => { keys, deadline }

/-- One step; none while there is nothing to do but sleep. -/
def step? (w : Wait) (s : Store) (now : Instant) : Option (Progress × Store) :=
  match w.phase with
  | .entering => some (.waiting { w with phase := .looking s.signals }, s)
  | .looking seen =>
    match s.takeMarker w.keys with
    | some s => some (.finished true, s)
    | none => some (.waiting { w with phase := .asleep seen }, s)
  | .asleep seen =>
    if seen < s.signals then some (.waiting { w with phase := .entering }, s)
    else if w.deadline ≤ now then some (.finished false, s)
    else none

end Wait

end ReadThrough
