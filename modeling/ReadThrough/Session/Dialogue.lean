import ReadThrough.Session
import ReadThrough.Wire.Forwarder
import ReadThrough.Wire.Remote

/-! # Dialogues

A dialogue performs scripted steps on a remote store whose server only reads answers out.

* **Steps** (`Step`).  An operation, or something that happens to a subscription, with the replies
  that the server has for it.
* **The server** (`Peer`).  It answers every exchange with the next reply, and with a refusal when
  none is left.
* **Answers.**  Each step is answered by its result, the commands that were sent and the number of
  connections so far. -/

namespace ReadThrough.Session.Dialogue

open Wire

/-- What is done in a step. -/
inductive Action where
  | enqueue (id : Id) (priority : Priority)
  | dequeue
  | complete (id : Id) (completion : Completion)
  | lookup (id : Id)
  | isFinished (id : Id)
  | wait (timeout : Duration)
  | queued (max : Nat)
  | inProgress
  | pending
  | ping
  | subscribe
  /-- Payloads arrive on the newest subscription. -/
  | push (payloads : List Bytes)
  /-- The newest subscription loses its connection and gets another one. -/
  | cut

/-- One step. -/
structure Step where
  queue : String
  action : Action
  replies : List Reply

/-- A server that reads replies out. -/
structure Peer where
  replies : List Reply
  /-- What it was sent, the oldest first. -/
  received : List Command := []

/-- What the server says when it has nothing to read out. -/
def Peer.silence : Reply := .refusal (.ofLine "ERR no reply")

/-- Answer commands that were sent together. -/
def Peer.answer (p : Peer) (commands : List Command) : Reply × Peer :=
  let received := p.received ++ commands
  match p.replies with
  | [] => (silence, { replies := [], received })
  | r :: rest => (r, { replies := rest, received })

/-- The state of a dialogue. -/
structure State where
  /-- How many connections were opened. -/
  connections : Nat := 1
  /-- Whether a connection is kept for waiting. -/
  spare : Bool := false
  /-- All subscriptions, the newest first. -/
  forwarders : List Forwarder := []

/-- Words of a command as JSON: texts, or the digits of what is no text.  The text and the digest
of a script are not shown. -/
def shown (c : Command) : Json :=
  let word (bytes : Bytes) : Json :=
    match Utf8.string? bytes with
    | some s => .string s
    | none => .object [("hex", .string (Hex.text bytes))]
  let words := match c with
    | .run script keys args =>
      (Command.words (.run script keys args)).set 1 (Utf8.bytes "<sha>")
    | .load script => (Command.words (.load script)).set 2 (Utf8.bytes "<lua>")
    | c => c.words
  .array (words.map word)

/-- The answer to a step. -/
def entry (s : State) (commands : List Command) (result : Json) : Json :=
  .object [("result", result), ("commands", .array (commands.map shown)),
    ("connections", .nat s.connections)]

/-- Perform an operation on the ordinary connection. -/
def perform {α : Type} (s : State) (replies : List Reply) (t : Talk α) (f : α → Json) :
    Json × State :=
  let (r, peer) := t.run Peer.answer { replies }
  (entry s peer.received (answerWith f r), s)

/-- Wait for work: a connection that has served once is kept unless its wait failed. -/
def wait (s : State) (replies : List Reply) (k : Keys) (timeout : Duration) : Json × State :=
  let (r, peer) := (Remote.wait k timeout).run Peer.answer { replies }
  let s := { s with
    connections := if s.spare then s.connections else s.connections + 1
    spare := r.toBool }
  (entry s peer.received (answerWith .bool r), s)

/-- The messages that a forwarder passed on after the first `n`. -/
def messagesAfter (n : Nat) (f : Forwarder) : Json :=
  .object [("messages", texts (f.delivered.drop n))]

/-- Perform a step. -/
def State.step (s : State) (x : Step) : Json × State :=
  let k : Keys := ⟨x.queue⟩
  match x.action with
  | .enqueue id p => perform s x.replies (Remote.enqueue k id p) enqueuedAnswer
  | .dequeue => perform s x.replies (Remote.dequeue k) claimAnswer
  | .complete id c => perform s x.replies (Remote.complete k id c) fun _ => done
  | .lookup id => perform s x.replies (Remote.lookup k id) recordAnswer
  | .isFinished id => perform s x.replies (Remote.isFinished k id) .bool
  | .wait timeout => wait s x.replies k timeout
  | .queued n => perform s x.replies (Remote.queued k n) texts
  | .inProgress => perform s x.replies (Remote.inProgress k) texts
  | .pending => perform s x.replies (Remote.pending k) .nat
  | .ping => perform s x.replies Remote.ping fun _ => done
  | .subscribe =>
    let f := ({ channel := k.channel } : Forwarder).feed [.announce]
    let s := { s with connections := s.connections + 1, forwarders := f :: s.forwarders }
    (entry s [.subscribe k.channel] (messagesAfter 0 f), s)
  | .push payloads =>
    match s.forwarders with
    | [] => (entry s [] (texts []), s)
    | f :: rest =>
      let g := f.feed (payloads.map .payload)
      (entry s [] (messagesAfter f.delivered.length g), { s with forwarders := g :: rest })
  | .cut =>
    match s.forwarders with
    | [] => (entry s [] (texts []), s)
    | f :: rest =>
      let g := f.feed [.lost, .wakeup, .connected, .announce]
      let s := { s with connections := s.connections + 1, forwarders := g :: rest }
      (entry s [.subscribe f.channel] (messagesAfter f.delivered.length g), s)

/-- Perform steps one after the other and give their answers. -/
def answers : State → List Step → List Json
  | _, [] => []
  | s, x :: rest =>
    let (j, s) := s.step x
    j :: answers s rest

/-- The answers of a new dialogue. -/
def run (steps : List Step) : List Json := answers {} steps

end ReadThrough.Session.Dialogue
