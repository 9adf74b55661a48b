/-! # Key layout

Where a queue keeps its data.  Every key of the queue named `q` starts with `rc:q`; the fixed
endings tell the work-ready markers, the claimed ids and the completion channel apart, and the
records of an id carry the id as their last part (`Keys.value`, `Keys.failure`). -/

namespace ReadThrough

/-- An identifier of a cached entry. -/
abbrev Id := String

/-- A number that orders work: lower is sooner. -/
abbrev Priority := Int

/-- What every key starts with. -/
def Keys.root : String := "rc:"

/-- The keys of one queue. -/
structure Keys where
  /-- The name of the queue. -/
  name : String
deriving DecidableEq, Repr, Inhabited

namespace Keys

/-- The sorted set of queued ids. -/
def queue (k : Keys) : String := root ++ k.name

/-- The list of work-ready markers. -/
def workReady (k : Keys) : String := k.queue ++ ":wr"

/-- The set of claimed ids. -/
def inProgress (k : Keys) : String := k.queue ++ ":inp"

/-- The channel on which finished ids are announced. -/
def channel (k : Keys) : String := k.queue ++ ":ch"

/-- The value stored for `id`. -/
def value (k : Keys) (id : Id) : String := k.queue ++ ":k:" ++ id

/-- The failure stored for `id`. -/
def failure (k : Keys) (id : Id) : String := k.queue ++ ":er:" ++ id

end Keys

/-- The marker pushed for each enqueue that changes the queue. -/
def Keys.marker : String := "W"

/-- The largest magnitude up to which a double holds every integer. -/
def Priority.maxExact : Nat := 1 <<< 53

end ReadThrough
