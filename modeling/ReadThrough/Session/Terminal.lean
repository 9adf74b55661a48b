import ReadThrough.Cli
import ReadThrough.Session.Dialogue

/-! # Terminals

A terminal runs the program from its first word to its last, with files that are given beforehand
and a server that answers by a table.

* **The server** (`Desk`).  A list of answers for the name of a command, or for the name and the
  first argument, which counts more.  Answers are used one after the other, the last one again and
  again; commands that are not in the table are answered with `OK`.
* **Transactions.**  The answer to a transaction is the list of the answers to its commands.  Those
  that write a result back are kept.
* **Interruption.**  The program can be told to stop once some results were written back. -/

namespace ReadThrough.Session.Terminal

open Wire Cli

/-- An answer of the table. -/
inductive Answer where
  | reply (r : Reply)
  /-- There will never be an answer. -/
  | never

/-- The server. -/
structure Desk where
  table : List (String × List Answer)
  /-- The commands of the transactions that wrote results back, the oldest first. -/
  written : List (List Wire.Command) := []
  /-- Whether an answer will never come. -/
  stuck : Bool := false

namespace Desk

/-- The keys under which a command may stand in the table.  The digest of a script does not count
as an argument. -/
def keys (c : Wire.Command) : List String :=
  let words := match c with
    | .run .. => c.words.eraseIdx 1
    | _ => c.words
  match words.map fun w => String.ofList (Utf8.decodeLossy w) with
  | name :: first :: _ => [name ++ " " ++ first, name]
  | words => words

/-- Take the answer of a key. -/
def take (key : String) :
    List (String × List Answer) → Option (Answer × List (String × List Answer))
  | [] => none
  | (k, answers) :: rest =>
    if k = key then
      match answers with
      | [] => none
      | [a] => some (a, (k, [a]) :: rest)
      | a :: more => some (a, (k, more) :: rest)
    else (take key rest).map fun (a, rest) => (a, (k, answers) :: rest)

/-- Answer one command. -/
def reply (d : Desk) (c : Wire.Command) : Reply × Desk :=
  match (keys c).findSome? fun key => take key d.table with
  | some (.reply r, table) => (r, { d with table })
  | some (.never, table) => (.nothing, { d with table, stuck := true })
  | none => (.status "OK", d)

/-- Answer commands one after the other. -/
def replies (d : Desk) : List Wire.Command → List Reply × Desk
  | [] => ([], d)
  | c :: rest =>
    let (r, d) := d.reply c
    let (more, d) := d.replies rest
    (r :: more, d)

/-- Whether a command announces a result. -/
def announces : Wire.Command → Bool
  | .publish .. => true
  | _ => false

/-- Answer commands that were sent together. -/
def answer (d : Desk) (commands : List Wire.Command) : Reply × Desk :=
  match commands with
  | [c] => d.reply c
  | commands =>
    let inner := (commands.drop 1).dropLast
    let (rs, d) := d.replies inner
    (.list rs,
      if inner.any announces then { d with written := d.written ++ [inner] } else d)

end Desk

/-- Everything around the program. -/
structure Setting where
  words : List String
  vars : Variables
  files : List (String × Bytes)
  table : List (String × List Answer)
  /-- The address at which the server listens. -/
  address : String
  /-- After how many written results the program is told to stop. -/
  stopAfter : Option Nat

namespace Setting

/-- What is found under a path. -/
def find (s : Setting) (path : String) : Settings.Found :=
  ({ files := fun name =>
      match s.files.lookup name with
      | some content => .file content
      | none =>
        if s.files.any fun f => f.1.startsWith (name ++ "/") then .directory else .nothing
     : Surroundings }).find path

end Setting

/-- How far a run may go. -/
def patience : Nat := 100000

/-- Run a cache over the wire until its callers have their results or it is told to stop; none if
it would go on for ever. -/
def work (plan : Plan) (s : Surroundings) (stopAfter : Option Nat) :
    Nat → Agent → Desk → Option Outcome × Desk
  | 0, _, d => (none, d)
  | fuel + 1, a, d =>
    let told : Bool :=
      match stopAfter with
      | some n => n ≤ d.written.length
      | none => false
    if told then (some {}, d)
    else
      match plan.computes, a.results? with
      | false, some results => (some (plan.outcome results), d)
      | _, _ =>
        let (need, a) := a.next
        let converse (t : Talk (Agent → Agent)) : Option Outcome × Desk :=
          match t.run Desk.answer d with
          | (.ok f, d) => if d.stuck then (none, d) else work plan s stopAfter fuel (f a) d
          | (.error e, d) => (some (.failed e []), d)
        match need with
        | .answer t => converse t
        | .work t => converse t
        | .computation k task =>
          let result := match plan.command with
            | .serve _ program => Program.compute s program task.priority task.id
            | _ => .failed ""
          work plan s stopAfter fuel (a.computed k result) d
        | .message (some t) => work plan s stopAfter fuel (a.waitUntil t) d
        | .message none => (none, d)

/-- Carry out a plan. -/
def carryOut (plan : Plan) (s : Surroundings) (stopAfter : Option Nat) (d : Desk) :
    Option Outcome × Desk :=
  match plan.command with
  | .status limit =>
    let (r, d) := (overview plan.settings.keys limit).run Desk.answer d
    (if d.stuck then none else some (.ofStatus plan.settings.queue r), d)
  | _ =>
    match plan.refusal? with
    | some e => (some (.failed e []), d)
    | none => work plan s stopAfter patience plan.agent d

/-- Run the program. -/
def execute (s : Setting) : Option Outcome × Desk :=
  let d : Desk := { table := s.table }
  match Arguments.parse s.words with
  | .error u => (some (.ofUsage u), d)
  | .ok arguments =>
    let vars := startVariables s.vars (s.find variablesFile)
    let document := (arguments.config.map s.find).getD .nothing
    match Plan.make arguments vars document with
    | .error e => (some (.failed e []), d)
    | .ok plan =>
      if plan.storeUrl = s.address then
        carryOut plan { vars, files := s.find } s.stopAfter d
      else (some (.failed StoreAddress.nobodyListens []), d)

/-- Bytes as JSON: a text, or the digits of what is no text. -/
def shownBytes (bytes : Bytes) : Json :=
  match Utf8.string? bytes with
  | some text => .string text
  | none => .object [("hex", .string (Hex.text bytes))]

/-- The answer to a run: how it ended, what it wrote, and the results it wrote back if it was to be
interrupted. -/
def run (s : Setting) : Json :=
  let (outcome, d) := execute s
  match outcome with
  | none => .object [("hang", .bool true)]
  | some o =>
    let complaint := match o.code, o.complaint with
      | 1, some text => [("stderr", Json.string (String.ofList (Text.trimEnd text.toList)))]
      | _, _ => []
    let written := d.written.map fun cs => Json.array (cs.map Dialogue.shown)
    let completions := match s.stopAfter with
      | some _ => [("completions", Json.array written)]
      | none => []
    .object ([("code", .nat o.code), ("stdout", shownBytes o.out)] ++ complaint ++ completions)

end ReadThrough.Session.Terminal
