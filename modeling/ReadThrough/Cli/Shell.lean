import ReadThrough.Cli.Script
import ReadThrough.Cli.Tool

/-! # The shell

Running a shell script over the small tools.

* **State** (`Shell`).  Variables, positional parameters, the status of the last command, and what
  was written so far.
* **Words** (`Shell.fields`).  Values outside of quotes are split at white space; what a command
  writes stands without the line ends at its end.
* **Channels** (`Shell.Sink`).  Output and errors go where the redirections of a command send them,
  taken from left to right.
* **Ends.**  `exit` ends a script with a status and a signal to itself without one. -/

namespace ReadThrough.Cli

/-- A shell in the middle of a script. -/
structure Shell where
  vars : Variables
  /-- The name of the script. -/
  name : String
  positional : List String := []
  status : Nat := 0
  out : Bytes := []
  err : Bytes := []
  /-- How the script ended, if it did: with a status, or by a signal. -/
  ended : Option (Option Nat) := none

namespace Shell

open Script

/-- What a shell has besides its state. -/
structure World where
  files : String → Settings.Found
  /-- Run a program that is no part of the shell; none if there is no such program. -/
  program : List String → Surroundings → Option Finished

/-- The number by which a script knows itself. -/
def ownNumber : String := "4242"

/-- The value of a parameter. -/
def parameter (s : Shell) (name : String) : String :=
  match name with
  | "?" => Text.decimalText s.status
  | "#" => Text.decimalText s.positional.length
  | "$" => ownNumber
  | "0" => s.name
  | "@" => " ".intercalate s.positional
  | "*" => " ".intercalate s.positional
  | name =>
    match Text.readNat 9 name.toList with
    | .ok n => (s.positional[n - 1]?).getD ""
    | .error _ => (s.vars.text? name).getD ""

/-! ### Words -/

/-- Fields in the making, in reverse. -/
structure Fields where
  done : List (List Char) := []
  /-- The field that has begun. -/
  current : Option (List Char) := none

namespace Fields

/-- Append characters to the field that has begun. -/
def push (f : Fields) (cs : List Char) : Fields :=
  { f with current := some (cs.reverse ++ f.current.getD []) }

/-- End the field that has begun. -/
def cut (f : Fields) : Fields :=
  match f.current with
  | some cs => { done := cs.reverse :: f.done }
  | none => f

/-- Append a value that is split at white space. -/
def split (f : Fields) (cs : List Char) : Fields :=
  cs.foldl (fun f c => if c = ' ' ∨ c = '\t' ∨ c = '\n' then f.cut else f.push [c]) f

/-- Append a value. -/
def add (f : Fields) (quoted : Bool) (cs : List Char) : Fields :=
  if quoted then f.push cs else f.split cs

/-- The fields. -/
def toList (f : Fields) : List String := f.cut.done.reverse.map String.ofList

end Fields

/-- A text without the line ends at its end. -/
def withoutLineEnds (cs : List Char) : List Char :=
  (cs.reverse.dropWhile (· == '\n')).reverse

/-- The fields of a word; `inner` gives what a script writes. -/
def fields (s : Shell) (inner : List Char → Bytes) (w : Word) : List String :=
  let step (f : Fields) : Part → Fields
    | .text cs _ => f.push cs
    | .parameter "@" none true =>
      match s.positional with
      | [] => f
      | first :: rest =>
        rest.foldl (fun f p => f.cut.push p.toList) (f.push first.toList)
    | .parameter name otherwise quoted =>
      let value := (s.parameter name).toList
      f.add quoted (if value.isEmpty then otherwise.getD [] else value)
    | .output script quoted => f.add quoted (withoutLineEnds (Utf8.decodeLossy (inner script)))
  if w.isEmpty then [""] else (w.foldl step {}).toList

/-- The text of a word that is not split. -/
def joined (s : Shell) (inner : List Char → Bytes) (w : Word) : String :=
  " ".intercalate (s.fields inner w)

/-! ### Channels -/

/-- Where a channel leads. -/
inductive Sink where
  | out
  | err
  | nowhere
deriving DecidableEq, Repr

/-- Where output and errors lead. -/
structure Sinks where
  out : Sink := .out
  err : Sink := .err

/-- The sink of a redirection. -/
def Sinks.target (k : Sinks) (text target : String) : Sink :=
  match text, target with
  | ">&", "1" => k.out
  | ">&", "2" => k.err
  | ">", "/dev/stdout" => k.out
  | ">", "/dev/stderr" => k.err
  | _, _ => .nowhere

/-- Follow a redirection. -/
def Sinks.follow (k : Sinks) (channel : Nat) (text target : String) : Sinks :=
  match channel with
  | 1 => { k with out := k.target text target }
  | 2 => { k with err := k.target text target }
  | _ => k

/-- Write bytes to a sink. -/
def write (s : Shell) (sink : Sink) (bytes : Bytes) : Shell :=
  match sink with
  | .out => { s with out := s.out ++ bytes }
  | .err => { s with err := s.err ++ bytes }
  | .nowhere => s

/-- Write what a command wrote. -/
def deliver (s : Shell) (k : Sinks) (out err : Bytes) : Shell :=
  (s.write k.out out).write k.err err

/-- The redirections of a command: the sinks, and the input that it gets.  An input that is not
there is told by its name. -/
def redirected (s : Shell) (w : World) (inner : List Char → Bytes) (input : Bytes)
    (rs : List Redirect) : Except String (Sinks × Bytes) :=
  rs.foldlM (fun (k, input) r =>
    let target := s.joined inner r.target
    if r.text = "<" then
      match ({ files := w.files : Surroundings }).find target with
      | .file content => .ok (k, content)
      | _ => .error target
    else .ok (k.follow r.channel r.text target, input)) ({}, input)

/-! ### Built-in commands -/

/-- A complaint of the shell itself. -/
def complaint (s : Shell) (text : String) : Bytes :=
  Utf8.bytes (s.name ++ ": 1: " ++ text ++ "\n")

/-- Set the variables of assignments. -/
def assign (s : Shell) (inner : List Char → Bytes) (l : List (String × Word)) : Shell :=
  l.foldl (fun s (name, w) =>
    { s with vars := s.vars.put name (s.joined inner w) }) s

/-- Set the variables of words such as `name=value`. -/
def exported (s : Shell) (words : List String) : Shell :=
  words.foldl (fun s w =>
    let cs := w.toList
    let name := cs.takeWhile (· != '=')
    match cs.drop name.length with
    | _ :: value =>
      { s with vars := s.vars.put (String.ofList name) (String.ofList value) }
    | [] => s) s

/-- The state after a program ran as the last command. -/
def ran (s : Shell) (k : Sinks) (f : Finished) : Shell :=
  { s.deliver k f.out f.err with status := f.status.getD 137 }

/-- Run a command that is not part of the shell. -/
def invoke (s : Shell) (w : World) (k : Sinks) (input : Bytes) (words : List String) : Shell :=
  match w.program words { vars := s.vars, input, files := w.files } with
  | some f => s.ran k f
  | none =>
    { s.write k.err (s.complaint (words.headD "" ++ ": not found")) with status := 127 }

/-- Run a command by its words. -/
def command (s : Shell) (w : World) (k : Sinks) (input : Bytes) (words : List String) : Shell :=
  match words with
  | [] => { s with status := 0 }
  | ":" :: _ => { s with status := 0 }
  | "exit" :: args =>
    match args with
    | [] => { s with ended := some (some s.status) }
    | n :: _ =>
      match Text.readNat (Int32.maxValue.toNatClampNeg) n.toList with
      | .ok n => { s with ended := some (some (n % 256)) }
      | .error _ =>
        { s.write k.err (s.complaint ("exit: Illegal number: " ++ n)) with ended := some (some 2) }
  | "kill" :: args =>
    if args.contains ownNumber ∧ !args.contains "-0" then { s with ended := some none }
    else { s with status := 0 }
  | "exec" :: [] => { s with status := 0 }
  | "exec" :: words =>
    let s := s.invoke w k input words
    { s with ended := some (some s.status) }
  | "export" :: words => { s.exported words with status := 0 }
  | "shift" :: _ => { s with positional := s.positional.drop 1, status := 0 }
  | "cd" :: _ => { s with status := 0 }
  | "set" :: _ => { s with status := 0 }
  | "trap" :: _ => { s with status := 0 }
  | "wait" :: _ => { s with status := 0 }
  | "echo" :: args => s.ran k (Tool.echo true args)
  | word :: args =>
    if word ∈ ["printf", "true", "false", "test", "["] then
      match Tool.run? word word { vars := s.vars, files := w.files } args with
      | some f => s.ran k f
      | none => s
    else s.invoke w k input (word :: args)

/-! ### Scripts -/

/-- The state of a shell for an inner part whose output is collected. -/
def fresh (s : Shell) : Shell := { s with out := [], err := [], ended := none }

/-- The status with which an inner part ended. -/
def finalStatus (s : Shell) : Nat :=
  match s.ended with
  | some (some n) => n
  | some none => 137
  | none => s.status

/-- Run commands.  The number bounds how deeply they are nested. -/
def eval (w : World) : Nat → Node → Bytes → Shell → Shell
  | 0, _, _, s => s
  | fuel + 1, node, input, s =>
    let inner (script : List Char) : Bytes :=
      match Script.parse? script with
      | some node => (eval w fuel node input s.fresh).out
      | none => []
    let within (rs : List Redirect) (run : Bytes → Sinks → Shell) : Shell :=
      match s.redirected w inner input rs with
      | .ok (k, input) => run input k
      | .error target =>
        { s with
          err := s.err ++ s.complaint ("cannot open " ++ target ++ ": No such file"), status := 2 }
    if s.ended.isSome then s
    else
      match node with
      | .nothing => s
      | .simple assignments words rs =>
        let fields := words.flatMap (s.fields inner)
        if fields.isEmpty then { s.assign inner assignments with status := 0 }
        else
          within rs fun input k =>
            let t := (s.assign inner assignments).command w k input fields
            -- An assignment in front of a command is for that command only.
            if assignments.isEmpty then t else { t with vars := s.vars }
      | .both first second => eval w fuel second input (eval w fuel first input s)
      | .ifOk first second =>
        let s := eval w fuel first input s
        if s.status = 0 then eval w fuel second input s else s
      | .ifFailed first second =>
        let s := eval w fuel first input s
        if s.status = 0 then s else eval w fuel second input s
      | .inverted first =>
        let s := eval w fuel first input s
        { s with status := if s.status = 0 then 1 else 0 }
      | .piped first second =>
        let a := eval w fuel first input s.fresh
        let b := eval w fuel second a.out s.fresh
        { s with out := s.out ++ b.out, err := s.err ++ a.err ++ b.err, status := b.finalStatus }
      | .subshell body rs =>
        within rs fun input k =>
          let t := eval w fuel body input s.fresh
          { s.deliver k t.out t.err with status := t.finalStatus }
      | .group body rs =>
        within rs fun input k =>
          let t := eval w fuel body input s.fresh
          { t with out := s.out, err := s.err }.deliver k t.out t.err
      | .branch condition success failure =>
        let s := eval w fuel condition input s
        if s.ended.isSome then s
        else if s.status = 0 then eval w fuel success input s
        else eval w fuel failure input { s with status := 0 }

/-- Run a script under a name with its parameters. -/
def run (w : World) (vars : Variables) (input : Bytes) (script name : String)
    (positional : List String) : Finished :=
  match Script.parse? script.toList with
  | none => .failed 2 (name ++ ": 1: Syntax error\n")
  | some node =>
    let s := eval w (4 * script.length + 8) node input { vars, name, positional }
    { status := match s.ended with | some e => e | none => some s.status
      out := s.out, err := s.err }

end Shell

end ReadThrough.Cli
