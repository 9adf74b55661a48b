import ReadThrough.Duration
import ReadThrough.Task
import ReadThrough.Text.Utf8

/-! # Subscriptions over the wire

A forwarder keeps one subscription to a channel alive and passes on what arrives.

* **Announcing.**  Each connection begins with one empty message, so that the receiver knows that
  it may have missed something before.
* **Forwarding.**  Payloads are passed on in order; one that is no text is skipped.
* **Reconnecting.**  A lost connection is followed by a pause and an attempt to connect, and so is
  every attempt that fails.
* **End.**  The forwarder ends when it finds that the receiver has gone: when it sends, while it
  listens to the connection, and at the start of a pause or during it. -/

namespace ReadThrough.Wire

/-- Where a forwarder stands. -/
inductive Forwarder.Phase where
  /-- A connection was established and is to be announced. -/
  | announcing
  | forwarding
  /-- Waiting before the next attempt to connect. -/
  | pausing
  | connecting
  | ended
deriving DecidableEq, Repr, Inhabited

/-- One subscription. -/
structure Forwarder where
  channel : String
  phase : Forwarder.Phase := .announcing
  /-- Everything that was passed on, the oldest first. -/
  delivered : List String := []
  /-- Whether the receiver is still there. -/
  listening : Bool := true
deriving DecidableEq, Repr, Inhabited

namespace Forwarder

/-- How long a forwarder waits before it tries to connect. -/
def pause : Duration := .ofSecs 1

/-- What happens to a forwarder. -/
inductive Input where
  /-- It announces its connection. -/
  | announce
  | payload (bytes : Bytes)
  /-- The connection is lost. -/
  | lost
  /-- The pause is over. -/
  | wakeup
  | connected
  | refused
  /-- The receiver goes away. -/
  | hangUp
  /-- It finds that the receiver has gone. -/
  | notice
deriving DecidableEq, Repr

/-- Pass a message on; without a receiver the forwarder ends. -/
def send (f : Forwarder) (message : String) : Forwarder :=
  if f.listening then { f with delivered := f.delivered ++ [message] }
  else { f with phase := .ended }

/-- Pause before the next attempt to connect; without a receiver the forwarder ends.  The pause is
left as soon as the receiver goes, and it takes time, so it is not even begun if there is none. -/
def rest (f : Forwarder) : Forwarder :=
  { f with phase := if f.listening then .pausing else .ended }

/-- One step of a forwarder; none if the input does not fit its phase. -/
def step? (f : Forwarder) : Input → Option Forwarder
  | .announce =>
    if f.phase = .announcing then some ({ f with phase := .forwarding }.send "") else none
  | .payload bytes =>
    if f.phase = .forwarding then
      match Utf8.string? bytes with
      | some message => some (f.send message)
      | none => some f
    else none
  | .lost => if f.phase = .forwarding then some f.rest else none
  | .wakeup => if f.phase = .pausing then some { f with phase := .connecting } else none
  | .connected => if f.phase = .connecting then some { f with phase := .announcing } else none
  | .refused => if f.phase = .connecting then some f.rest else none
  | .hangUp => some { f with listening := false }
  | .notice =>
    if f.listening then none
    else
      match f.phase with
      | .forwarding => some { f with phase := .ended }
      | .pausing => some { f with phase := .ended }
      | _ => none

/-- Inputs one after the other; one that does not fit is passed over. -/
def feed (f : Forwarder) (inputs : List Input) : Forwarder :=
  inputs.foldl (fun f i => (f.step? i).getD f) f

end Forwarder

end ReadThrough.Wire
