import ReadThrough.Keys
import ReadThrough.Text.Integer

/-! # Command line arguments

What the words after the program's name say.

* **Scanning** (`scan`).  Options with a value stand anywhere before `--`, as `--name value` or as
  `--name=value`; a value of its own word does not start with a dash.  Everything else is an
  operand, and so is every word after `--`.
* **Commands** (`Command`).  The first operand names a command; options of all commands may stand
  on both sides of it, and the one further right counts.
* **Misuse.**  Whatever does not fit is a misuse, and so is an option given twice. -/

namespace ReadThrough.Cli

/-- What is to be done. -/
inductive Command where
  /-- Compute what is queued with a program. -/
  | serve (workers : Option Nat) (program : List String)
  /-- Fetch one entry. -/
  | get (id : Id) (priority : Priority)
  /-- Make sure that entries are computed. -/
  | warm (ids : List Id) (priority : Priority)
  /-- Show what is queued and claimed. -/
  | status (limit : Nat)
deriving DecidableEq, Repr, Inhabited

/-- A whole command line. -/
structure Arguments where
  /-- The name of the queue, over that of the settings. -/
  queue : Option String
  /-- A settings file, in place of the environment. -/
  config : Option String
  command : Command
deriving DecidableEq, Repr, Inhabited

/-- Why there is nothing to be done. -/
inductive Usage where
  /-- The command line asks for help. -/
  | help
  | misuse
deriving DecidableEq, Repr, Inhabited

/-! ### Scanning -/

/-- Options and operands in their order. -/
structure Scan where
  options : List (String × String) := []
  operands : List String := []
  /-- The operands after `--`, if it was given. -/
  trailing : Option (List String) := none
deriving Inhabited

/-- Whether a word cannot be the value of the option before it. -/
def looksLikeOption (word : String) : Bool := word.startsWith "-" && word != "-"

/-- The name of a long option and the value attached to it. -/
def longOption? (word : String) : Option (String × Option String) :=
  match word.toList with
  | '-' :: '-' :: c :: cs =>
    let body := c :: cs
    match body.dropWhile (· != '=') with
    | [] => some (String.ofList body, none)
    | _ :: value => some (String.ofList (body.takeWhile (· != '=')), some (String.ofList value))
  | _ => none

/-- Scan words for some known options.  With `untilOperand` the scan stops at the first operand and
gives it back with what follows. -/
def scan (known : List String) (untilOperand : Bool) : List String → Scan →
    Except Usage (Scan × List String)
  | [], s => .ok (s, [])
  | "--" :: rest, s => .ok ({ s with trailing := some rest }, [])
  | word :: rest, s =>
    match longOption? word with
    | some (name, attached) =>
      if known.contains name then
        if (s.options.lookup name).isSome then .error .misuse
        else
          match attached, rest with
          | some value, rest =>
            scan known untilOperand rest { s with options := s.options ++ [(name, value)] }
          | none, value :: rest =>
            if looksLikeOption value then .error .misuse
            else scan known untilOperand rest { s with options := s.options ++ [(name, value)] }
          | none, [] => .error .misuse
      else if name = "help" ∧ attached.isNone then .error .help
      else .error .misuse
    | none =>
      if looksLikeOption word then .error (if word.startsWith "-h" then .help else .misuse)
      else if untilOperand then .ok (s, word :: rest)
      else scan known untilOperand rest { s with operands := s.operands ++ [word] }

/-! ### Reading -/

/-- The value of an option that is a natural number. -/
def natOption (s : Scan) (name : String) : Except Usage (Option Nat) :=
  match s.options.lookup name with
  | none => .ok none
  | some value =>
    match Text.readNat (UInt64.size - 1) value.toList with
    | .ok n => .ok (some n)
    | .error _ => .error .misuse

/-- The priority that was asked for, zero if none was. -/
def priorityOption (s : Scan) : Except Usage Priority :=
  match s.options.lookup "priority" with
  | none => .ok 0
  | some value =>
    match Text.readInt 64 value.toList with
    | .ok n => .ok n
    | .error _ => .error .misuse

/-- The options of every command. -/
def sharedOptions : List String := ["queue", "config"]

/-- The options of a command, if there is one of that name. -/
def optionsOf? : String → Option (List String)
  | "serve" => some ["workers"]
  | "get" => some ["priority"]
  | "warm" => some ["priority"]
  | "status" => some ["limit"]
  | _ => none

/-- How many queued ids are shown if nothing else is said. -/
def standardLimit : Nat := 20

/-- The command of a name with what was given to it. -/
def Command.of (name : String) (s : Scan) : Except Usage Command :=
  let operands := s.operands ++ s.trailing.getD []
  match name with
  | "serve" => do
    let workers ← natOption s "workers"
    match s.operands, s.trailing with
    | [], some (word :: rest) => .ok (.serve workers (word :: rest))
    | _, _ => .error .misuse
  | "get" => do
    let priority ← priorityOption s
    match operands with
    | [id] => .ok (.get id priority)
    | _ => .error .misuse
  | "warm" => do
    let priority ← priorityOption s
    if operands.isEmpty then .error .misuse else .ok (.warm operands priority)
  | "status" => do
    let limit ← natOption s "limit"
    if operands.isEmpty then .ok (.status (limit.getD standardLimit)) else .error .misuse
  | _ => .error .misuse

/-- The answer to a question for help on some topics: there is help on single commands. -/
def helpOn : List String → Usage
  | [] => .help
  | [topic] => if topic = "help" ∨ (optionsOf? topic).isSome then .help else .misuse
  | _ => .misuse

/-- Read a command line. -/
def Arguments.parse (words : List String) : Except Usage Arguments := do
  let (before, rest) ← scan sharedOptions true words {}
  match rest with
  | "help" :: topics => .error (helpOn topics)
  | name :: rest =>
    match optionsOf? name with
    | none => .error .misuse
    | some own =>
      let (after, _) ← scan (sharedOptions ++ own) false rest {}
      let shared (option : String) : Option String :=
        after.options.lookup option <|> before.options.lookup option
      -- A file has a name.
      if (before.options ++ after.options).any fun o => o.1 == "config" && o.2.isEmpty then
        .error .misuse
      else
        let command ← Command.of name after
        .ok { queue := shared "queue", config := shared "config", command }
  | [] => .error .misuse

end ReadThrough.Cli
