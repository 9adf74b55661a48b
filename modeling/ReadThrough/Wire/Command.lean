import ReadThrough.Binary.Shortest
import ReadThrough.Duration
import ReadThrough.Task
import ReadThrough.Text.Integer
import ReadThrough.Text.Utf8

/-! # Commands

What is sent to a store server.

* **Commands** (`Command`).  One constructor for each command in use; `Command.words` gives the
  words that are sent for it.
* **Scripts** (`Script`).  Queueing and claiming look at several keys at once, so each runs as one
  script inside the server.  A script that the server knows is called by its digest.
* **Transactions** (`Command.atomic`).  Commands between `MULTI` and `EXEC` take effect together,
  and the reply to `EXEC` is the list of their replies. -/

namespace ReadThrough.Wire

/-- A program that runs inside the server. -/
inductive Script where
  /-- Queue an id unless it is claimed (answer 1) or finished (answer 2). -/
  | enqueue
  /-- Claim the first queued id. -/
  | dequeue
deriving DecidableEq, Repr, Inhabited

namespace Script

/-- The lines of a script.  The keys of `enqueue` are the queue, the claimed ids, the value, the
failure and the markers, and its arguments are the id, the priority and the marker; the keys of
`dequeue` are the queue and the claimed ids. -/
def lines : Script → List String
  | enqueue => [
    "if redis.call('SISMEMBER', KEYS[2], ARGV[1]) == 1 then",
    "  return 1",
    "end",
    "if redis.call('EXISTS', KEYS[3], KEYS[4]) > 0 then",
    "  return 2",
    "end",
    "local old = redis.call('ZSCORE', KEYS[1], ARGV[1])",
    "if (not old) or tonumber(ARGV[2]) < tonumber(old) then",
    "  redis.call('ZADD', KEYS[1], ARGV[2], ARGV[1])",
    "  redis.call('RPUSH', KEYS[5], ARGV[3])",
    "end",
    "return 0"]
  | dequeue => [
    "local popped = redis.call('ZPOPMIN', KEYS[1])",
    "if #popped == 0 then",
    "  return \x7b\x7d",
    "end",
    "redis.call('SADD', KEYS[2], popped[1])",
    "return \x7bpopped[1], popped[2], tostring(redis.call('ZCARD', KEYS[1]))\x7d"]

/-- The text of a script: an empty line, and then each of its lines. -/
def text (s : Script) : String := String.join (("" :: s.lines).map (· ++ "\n"))

/-- The SHA-1 digest of the text of a script. -/
def digest : Script → String
  | enqueue => "27986a294c8b1203c59c4136b3f21e6e37f6fd7e"
  | dequeue => "4286fab8460c609b65fbe290862b0d8ee5b2fc08"

end Script

/-- One command. -/
inductive Command where
  | ping
  | multi
  | exec
  | get (key : String)
  | set (key : String) (value : Bytes)
  /-- Set a text that disappears after some milliseconds. -/
  | setFor (key : String) (millis : Nat) (text : String)
  | del (key : String)
  /-- Whether there is something under a key. -/
  | has (key : String)
  /-- Remove a member from a set. -/
  | removeMember (key member : String)
  | members (key : String)
  /-- The members of a sorted set from one rank to another. -/
  | range (key : String) (first last : Nat)
  /-- The number of members of a sorted set. -/
  | size (key : String)
  /-- Take the first element of a list, or wait for one. -/
  | takeFirst (key : String) (timeout : Duration)
  | publish (channel message : String)
  | subscribe (channel : String)
  /-- Run a script. -/
  | run (script : Script) (keys args : List String)
  /-- Make a script known. -/
  | load (script : Script)
deriving DecidableEq, Repr, Inhabited

namespace Command

/-- Numbers of seconds are written positionally from `1e-5` up to, not including, `1e16`. -/
def secondsLayout : Binary.Layout := ⟨-5, 15, false⟩

/-- A duration as a 64-bit number of seconds: the whole seconds and the rest are rounded first. -/
def seconds (d : Duration) : Binary :=
  let f := Binary.double
  f.add (f.ofInt d.secs) (f.div (f.ofInt d.subsecNanos) (f.ofInt Duration.nanosPerSec))

/-- The decimal text of a duration in seconds. -/
def secondsText (d : Duration) : String :=
  String.ofList (((seconds d).text? Binary.double secondsLayout).getD [])

/-- The words of a command. -/
def words : Command → List Bytes
  | ping => texts ["PING"]
  | multi => texts ["MULTI"]
  | exec => texts ["EXEC"]
  | get key => texts ["GET", key]
  | set key value => texts ["SET", key] ++ [value]
  | setFor key millis text => texts ["PSETEX", key, Text.decimalText millis, text]
  | del key => texts ["DEL", key]
  | has key => texts ["EXISTS", key]
  | removeMember key member => texts ["SREM", key, member]
  | members key => texts ["SMEMBERS", key]
  | range key first last => texts ["ZRANGE", key, Text.decimalText first, Text.decimalText last]
  | size key => texts ["ZCARD", key]
  | takeFirst key timeout => texts ["BLPOP", key, secondsText timeout]
  | publish channel message => texts ["PUBLISH", channel, message]
  | subscribe channel => texts ["SUBSCRIBE", channel]
  | run script keys args =>
    texts (["EVALSHA", script.digest, Text.decimalText keys.length] ++ keys ++ args)
  | load script => texts ["SCRIPT", "LOAD", script.text]
where
  /-- Words that are texts. -/
  texts (l : List String) : List Bytes := l.map Utf8.bytes

/-- Commands that take effect together. -/
def atomic (commands : List Command) : List Command := multi :: (commands ++ [exec])

end Command

end ReadThrough.Wire
