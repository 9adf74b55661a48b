import Std.Async.DNS
import Std.Async.Select
import Std.Async.Signal
import Std.Async.TCP
import Std.Async.Timer
import ReadThrough.Cli
import ReadThrough.Wire.Format
import ReadThrough.Wire.Forwarder

/-! # The program

The outer layer of the command line: it reads variables and files, carries bytes between sockets
and the agent, and writes what comes out.  Everything that is decided is decided elsewhere. -/

namespace ReadThrough.Outer

open Std.Async Std.Net Wire Cli

/-- A connection and the bytes that were received and not yet read. -/
structure Line where
  socket : TCP.Socket.Client
  received : IO.Ref Bytes

/-- An error of the connection as an error of the store. -/
def broken : IO.Error → Error
  | .noSuchThing _ _ "connection refused" => StoreAddress.nobodyListens
  | e => .store (toString e)

/-- Connect to one address. -/
def connectTo (ip : IPAddr) (port : UInt16) : Async Line := do
  let socket ← TCP.Socket.Client.mk
  let target : SocketAddress := match ip with
    | .v4 addr => .v4 ⟨addr, port⟩
    | .v6 addr => .v6 ⟨addr, port⟩
  socket.connect target
  return { socket, received := ← IO.mkRef [] }

/-- Connect to the first address that answers. -/
def connectAny (port : UInt16) : List IPAddr → Async Line
  | [] => throw (.userError "no address to connect to")
  | [ip] => connectTo ip port
  | ip :: rest => do
    try connectTo ip port
    catch _ => connectAny port rest

/-- Send commands. -/
def send (line : Line) (commands : List Wire.Command) : Async Unit :=
  line.socket.send (ByteArray.mk (commands.flatMap Wire.Command.encode).toArray)

/-- Take a reply from the bytes that were received. -/
def take? (line : Line) : Async (Option Reply) := do
  match Reply.ofBytes (← line.received.get) with
  | .found reply rest =>
    line.received.set rest
    return some reply
  | .partly => return none
  | .malformed => throw (.userError "malformed reply")

/-- Keep bytes that came from the socket. -/
def keep (line : Line) : Option ByteArray → Async Unit
  | some bytes => line.received.modify (· ++ bytes.toList)
  | none => throw (.userError "broken pipe")

/-- How many bytes are taken from a socket at once. -/
def chunk : UInt64 := 65536

/-- Wait for a reply. -/
partial def receive (line : Line) : Async Reply := do
  match ← take? line with
  | some reply => return reply
  | none =>
    keep line (← line.socket.recv? chunk)
    receive line

/-- Wait for as many replies as there are commands, and give the last one. -/
def lastReply (line : Line) : List Wire.Command → Async Reply
  | [] => return .nothing
  | [_] => receive line
  | _ :: rest => do
    let _ ← receive line
    lastReply line rest

/-- Hold a conversation. -/
def converse {α : Type} (line : Line) : Talk α → Async (Except Error α)
  | .result r => return r
  | .ask commands next => do
    let answer : Except Error Reply ← try
        send line commands
        pure (.ok (← lastReply line commands))
      catch e => pure (.error (broken e))
    match answer with
    | .ok reply => converse line (next reply)
    | .error e => return .error e

/-- Connect to a store. -/
def connect (a : StoreAddress) : Async Line := do
  let ips ← DNS.getAddrInfo a.host (toString a.port)
  let line ← connectAny a.port.toUInt16 ips.toList
  if a.database ≠ 0 then
    let text := "SELECT " ++ toString a.database ++ "\r\n"
    line.socket.send text.toUTF8
    match (← receive line).refusal? with
    | some r => throw (.userError r.message)
    | none => pure ()
  return line

/-- Connect to a store and subscribe to a channel. -/
def subscribe (a : StoreAddress) (channel : String) : Async Line := do
  let line ← connect a
  send line [.subscribe channel]
  match (← receive line).refusal? with
  | some r => throw (.userError r.message)
  | none => return line

/-- Everything that the agent is connected to. -/
structure Links where
  address : StoreAddress
  channel : String
  ordinary : Line
  /-- The subscription. -/
  feed : IO.Ref Line
  forwarder : IO.Ref Forwarder
  /-- The connection for waits, while it is good. -/
  spare : IO.Ref (Option Line)
  interrupt : Signal.Waiter
  /-- When the program started, in nanoseconds. -/
  origin : Nat

/-- The time of the agent. -/
def Links.now (k : Links) : Async Instant := return (← IO.monoNanosNow) - k.origin

/-- Tell the forwarder what happened, and give what it passes on. -/
def Links.forward (k : Links) (inputs : List Forwarder.Input) : Async (List String) := do
  let before ← k.forwarder.get
  let after := ({ before with delivered := [] }).feed inputs
  k.forwarder.set after
  return after.delivered

/-- Get the subscription back after it was lost. -/
partial def Links.restore (k : Links) : Async (List String) := do
  sleep (Std.Time.Millisecond.Offset.ofNat Forwarder.pause.millis)
  let found : Option Line ← try
      pure (some (← subscribe k.address k.channel))
    catch _ => pure none
  match found with
  | some line =>
    k.feed.set line
    k.forward [.wakeup, .connected, .announce]
  | none =>
    let _ ← k.forward [.wakeup, .refused]
    k.restore

/-- Take all messages from the bytes of the subscription. -/
partial def Links.messages (k : Links) : Async (List String) := do
  match ← take? (← k.feed.get) with
  | none => return []
  | some reply =>
    let fresh ← match reply.payload? with
      | some payload => k.forward [.payload payload]
      | none => pure []
    return fresh ++ (← k.messages)

/-- What was heard. -/
inductive Heard where
  /-- The user interrupts the program. -/
  | interrupt
  | feed (bytes : Option ByteArray)
  | work (bytes : Option ByteArray)
  /-- The time has come. -/
  | time

/-- Listen to everything at once. -/
def Links.hear (k : Links) (work : Option Line) (deadline : Option Instant) : Async Heard := do
  let feed ← k.feed.get
  let clock ← match deadline with
    | some t => do
      let millis := ((t - (← k.now)) + Duration.nanosPerMilli - 1) / Duration.nanosPerMilli
      pure (some (← Selector.sleep (Std.Time.Millisecond.Offset.ofNat millis)))
    | none => pure none
  let always : List (Selectable Heard) := [
    .case k.interrupt.selector fun _ => return .interrupt,
    .case (feed.socket.recvSelector chunk) fun bytes => return .feed bytes]
  let working : List (Selectable Heard) := match work with
    | some line => [.case (line.socket.recvSelector chunk) fun bytes => return .work bytes]
    | none => []
  let timed : List (Selectable Heard) := match clock with
    | some c => [.case c fun _ => return .time]
    | none => []
  Selectable.one (always ++ working ++ timed).toArray

/-- Act on bytes of the subscription. -/
def Links.fed (k : Links) (bytes : Option ByteArray) (a : Agent) : Async Agent := do
  let fresh ← try
      keep (← k.feed.get) bytes
      k.messages
    catch _ => do
      let _ ← k.forward [.lost]
      k.restore
  return fresh.foldl Agent.deliver a

/-- Wait for a reply while the subscription is heard; none after an interrupt. -/
partial def Links.awaitWork (k : Links) (line : Line) (a : Agent) :
    Async (Option (Reply × Agent)) := do
  match ← take? line with
  | some reply => return some (reply, a)
  | none =>
    match ← k.hear (some line) none with
    | .interrupt => return none
    | .feed bytes => k.awaitWork line (← k.fed bytes a)
    | .work bytes =>
      keep line bytes
      k.awaitWork line a
    | .time => k.awaitWork line a

/-- Hold a conversation on the connection for waits; none after an interrupt. -/
def Links.seek (k : Links) (a : Agent) :
    Talk (Agent → Agent) → Async (Option (Except Error (Agent → Agent) × Agent))
  | .result r => return some (r, a)
  | .ask commands next => do
    let heard : Except IO.Error (Option (Reply × Agent)) ← try
        let line ← match ← k.spare.get with
          | some line => pure line
          | none => connect k.address
        k.spare.set none
        send line commands
        let r ← k.awaitWork line a
        if r.all fun (reply, _) => reply.refusal?.isNone then k.spare.set (some line)
        pure (.ok r)
      catch e => pure (.error e)
    match heard with
    | .ok none => return none
    | .ok (some (reply, a)) => k.seek a (next reply)
    | .error e => k.seek a (next (.refusal ⟨"connection lost", some (toString e)⟩))

/-- Run the agent until its callers have their results or the user interrupts it. -/
partial def Links.run (k : Links) (p : Plan) (s : Surroundings) (a : Agent) :
    Async Cli.Outcome := do
  let a := a.waitUntil (← k.now)
  match p.computes, a.results? with
  | false, some results => return p.outcome results
  | _, _ =>
    let (need, a) := a.next
    match need with
    | .answer t =>
      match ← converse k.ordinary t with
      | .ok f => k.run p s (f a)
      | .error e => return .failed e []
    | .work t =>
      match ← k.seek a t with
      | none => return {}
      | some (.ok f, a) => k.run p s (f a)
      | some (.error e, _) => return .failed e []
    | .computation worker task =>
      let result := match p.command with
        | .serve _ program => Program.compute s program task.priority task.id
        | _ => .failed ""
      k.run p s (a.computed worker result)
    | .message deadline =>
      match ← k.hear none deadline with
      | .interrupt => return {}
      | .feed bytes => k.run p s (← k.fed bytes a)
      | _ => k.run p s a

/-- Carry out a plan. -/
def carryOut (p : Plan) (s : Surroundings) : Async Cli.Outcome := do
  try
    let ordinary ← connect p.store
    match p.command with
    | .status limit =>
      return .ofStatus p.settings.queue (← converse ordinary (overview p.settings.keys limit))
    | _ =>
      match p.refusal? with
      | some e => return .failed e []
      | none =>
        let channel := p.settings.keys.channel
        let feed ← subscribe p.store channel
        let k : Links := {
          address := p.store, channel, ordinary, feed := ← IO.mkRef feed
          forwarder := ← IO.mkRef ({ channel : Forwarder }.feed [.announce])
          spare := ← IO.mkRef none, interrupt := ← Signal.Waiter.mk .sigint false
          origin := ← IO.monoNanosNow }
        k.run p s p.agent
  catch e => return .failed (broken e) []

/-- What is found under a path. -/
def look (path : String) : IO Settings.Found := do
  try return .file (← IO.FS.readBinFile path).toList
  catch
    | .inappropriateType .. => return .directory
    | _ => return .nothing

/-- The variables that the program and what it runs look at. -/
def knownVariables : List String :=
  ["REDIS_URL", "RTCACHE_QUEUE", "RTCACHE_WORKERS", "RTCACHE_ERROR_TTL_SECS",
    "RTCACHE_WAIT_TIMEOUT_SECS", "RTCACHE_POLL_TIMEOUT_MS", "OTEL_ENDPOINT", "LOG_LEVEL", "PATH",
    "HOME", "USER", "LANG"]

/-- The variables of the process that are set. -/
def processVariables : IO Variables := do
  let mut found : Variables := []
  for name in knownVariables do
    match ← IO.getEnv name with
    | some value => found := found ++ [(name, Utf8.bytes value)]
    | none => pure ()
  return found

/-- Run the program. -/
def execute (words : List String) : IO Cli.Outcome := do
  match Arguments.parse words with
  | .error u => return .ofUsage u
  | .ok arguments =>
    let vars := startVariables (← processVariables) (← look variablesFile)
    let document ← match arguments.config with
      | some path => look path
      | none => pure .nothing
    match Plan.make arguments vars document with
    | .error e => return .failed e []
    | .ok plan => (carryOut plan { vars }).block

end ReadThrough.Outer

/-- The program of the command line. -/
def main (words : List String) : IO UInt32 := do
  let outcome ← ReadThrough.Outer.execute words
  let out ← IO.getStdout
  out.write (ByteArray.mk outcome.out.toArray)
  out.flush
  match outcome.complaint with
  | some text => IO.eprintln text
  | none => pure ()
  return outcome.code.toUInt32
