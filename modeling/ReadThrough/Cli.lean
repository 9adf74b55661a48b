import ReadThrough.Cli.Address
import ReadThrough.Cli.Arguments
import ReadThrough.Cli.Program
import ReadThrough.System
import ReadThrough.Wire.Agent

/-! # The command line

What the program does from its first word to its last.

* **Plans** (`Plan.make`).  Arguments, variables and a settings file become a plan, or the first
  thing that is wrong with them: variables come before the collector's address, that before the
  settings file, and the store's address comes last.
* **Views** (`overview`).  What a store tells about a queue.
* **Outcomes** (`Outcome`).  What is written and the exit status: 0 when all went well, 1 for an
  error, 2 for a misuse. -/

namespace ReadThrough.Cli

/-! ### Outcomes -/

/-- How the program ends. -/
structure Outcome where
  code : Nat := 0
  out : Bytes := []
  complaint : Option String := none
deriving DecidableEq, Repr, Inhabited

/-- The errors that are behind an error. -/
def causes : Error → List String
  | .store reason => [reason]
  | _ => []

/-- A text with every line indented. -/
def indented (text : String) : String :=
  "\n".intercalate ((text.splitOn "\n").map ("    " ++ ·))

/-- How an error is reported. -/
def report (e : Error) : String :=
  let behind := causes e
  "Error: " ++ e.message
    ++ (if behind.isEmpty then "" else "\n\nCaused by:\n" ++ "\n".intercalate (behind.map indented))

namespace Outcome

/-- An error ends the program; what was written before stays. -/
def failed (e : Error) (out : Bytes) : Outcome := { code := 1, out, complaint := some (report e) }

/-- What is said about a misuse. -/
def usageText : String := String.join [
  "Distributed read-through cache\n\n",
  "Usage: rtcache [OPTIONS] <COMMAND>\n\n",
  "Commands:\n",
  "  serve   Run workers that compute missing entries with a program\n",
  "  get     Fetch an entry and write its raw bytes to stdout\n",
  "  warm    Make sure entries are computed without fetching them\n",
  "  status  Show queued and in-progress ids\n\n",
  "Options:\n",
  "      --queue <QUEUE>    Queue name (overrides RTCACHE_QUEUE)\n",
  "      --config <CONFIG>  TOML file with cache settings (overrides RTCACHE_* variables)\n",
  "  -h, --help             Print help\n"]

/-- The end of a program that was not called rightly, or was asked for help. -/
def ofUsage : Usage → Outcome
  | .help => { out := Utf8.bytes usageText }
  | .misuse => { code := 2, complaint := some usageText }

/-- The end of a fetch. -/
def ofGet : Except Error Bytes → Outcome
  | .ok bytes => { out := bytes }
  | .error e => .failed e []

/-- The line for one id of a warming. -/
def warmLine (id : Id) : Except Error Bytes → String
  | .ok _ => id ++ "\tok\n"
  | .error e => id ++ "\terror\t" ++ e.message ++ "\n"

/-- The end of a warming: one line for each id, and an error if any of them failed. -/
def ofWarm (ids : List Id) (results : List (Except Error Bytes)) : Outcome :=
  let out := Utf8.bytes (String.join ((ids.zip results).map fun (id, r) => warmLine id r))
  match (results.filter fun r => !r.toBool).length with
  | 0 => { out }
  | n =>
    let share := Text.decimalText n ++ " of " ++ Text.decimalText ids.length
    .failed (.other (share ++ " ids failed")) out

end Outcome

/-! ### Views -/

/-- What a store tells about a queue. -/
structure Overview where
  pending : Nat
  queued : List Id
  inProgress : List Id
deriving DecidableEq, Repr, Inhabited

/-- Ask for an overview with at most `limit` queued ids. -/
def overview (k : Keys) (limit : Nat) : Wire.Talk Overview := do
  let pending ← Wire.Remote.pending k
  let queued ← Wire.Remote.queued k limit
  let inProgress ← Wire.Remote.inProgress k
  pure { pending, queued, inProgress }

namespace Overview

/-- A heading and ids below it, or nothing if there are none. -/
def block (heading : String) (ids : List Id) : String :=
  if ids.isEmpty then ""
  else "\n" ++ heading ++ ":\n" ++ String.join (ids.map fun id => "  " ++ id ++ "\n")

/-- The text of an overview. -/
def text (queue : String) (o : Overview) : String :=
  "queue:       " ++ queue ++ "\n"
    ++ "pending:     " ++ Text.decimalText o.pending ++ "\n"
    ++ "in progress: " ++ Text.decimalText o.inProgress.length ++ "\n"
    ++ block "next up" o.queued ++ block "computing" o.inProgress

end Overview

/-- The end of a look at a queue. -/
def Outcome.ofStatus (queue : String) : Except Error Overview → Outcome
  | .ok o => { out := Utf8.bytes (o.text queue) }
  | .error e => .failed e []

/-! ### Plans -/

/-- What is to be done, with all settings known. -/
structure Plan where
  storeUrl : String
  store : StoreAddress
  settings : Settings
  command : Command
deriving Repr

/-- The file of variables that is read at the start. -/
def variablesFile : String := ".env"

/-- The variables of the process with those of a file. -/
def startVariables (vs : Variables) (found : Settings.Found) : Variables :=
  match found with
  | .file content => vs.load content
  | _ => vs

/-- Make a plan; `document` is what is found under the path of the settings file. -/
def Plan.make (a : Arguments) (vs : Variables) (document : Settings.Found) : Except Error Plan := do
  let process ← ProcessSettings.ofEnvironment vs.environment
  match process.telemetryEndpoint with
  | some endpoint => Endpoint.check endpoint
  | none => pure ()
  let settings ← match a.config with
    | some path => Settings.ofFile path document
    | none => .ok process.cache
  let settings := match a.queue with
    | some queue => { settings with queue }
    | none => settings
  let settings := match a.command with
    | .serve (some workers) _ => { settings with workers }
    | _ => settings
  let store ← StoreAddress.ofText process.storeUrl
  .ok { storeUrl := process.storeUrl, store, settings, command := a.command }

namespace Plan

/-- Whether the plan is to compute. -/
def computes (p : Plan) : Bool :=
  match p.command with
  | .serve .. => true
  | _ => false

/-- Why no cache can be started with the settings. -/
def refusal? (p : Plan) : Option Error := System.refusal? p.settings p.computes

/-- The cache of the plan with its callers, just after its subscription was announced. -/
def agent (p : Plan) : Wire.Agent :=
  let a := (Wire.Agent.start p.settings p.computes).deliver ""
  match p.command with
  | .get id priority => a.want priority [id]
  | .warm ids priority => a.want priority ids
  | _ => a

/-- The end of a plan whose callers have their results. -/
def outcome (p : Plan) (results : List (Except Error Bytes)) : Outcome :=
  match p.command, results with
  | .get .., r :: _ => .ofGet r
  | .warm ids _, results => .ofWarm ids results
  | _, _ => {}

end Plan

end ReadThrough.Cli
