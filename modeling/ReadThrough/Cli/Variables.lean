import ReadThrough.Settings.Environment
import ReadThrough.Task
import ReadThrough.Text.Blank
import ReadThrough.Text.Utf8

/-! # Variables of a process

The environment of a process (`Variables`), and files of assignments that add to it.

* **Logical lines** (`logicalLines`).  A quote that is open at the end of a line goes on in the
  next one.  A line that starts with `#` says nothing, and a `#` after white space ends a line.
* **Assignments** (`assignment?`).  A name, an equals sign and a value; `export` may stand in
  front.
* **Values** (`Value.step`).  Single quotes keep everything, double quotes keep all but `\` and
  `$`.  `$NAME` and `${NAME}` stand for the variable, or for an earlier assignment of the file.
* **Loading** (`Variables.load`).  Variables that are set already stay as they are; the first line
  that is malformed ends the reading, and what came before it counts. -/

namespace ReadThrough.Cli

/-- The variables of a process; the first of one name counts. -/
abbrev Variables := List (String × Bytes)

namespace Variables

/-- The text of a variable, if it is set to a text. -/
def text? (vs : Variables) (name : String) : Option String :=
  (vs.lookup name).bind Utf8.string?

/-- Set a variable. -/
def put (vs : Variables) (name value : String) : Variables :=
  (name, Utf8.bytes value) :: vs.filter fun v => !(v.1 == name)

/-- The variables as settings see them. -/
def environment (vs : Variables) : ProcessSettings.Environment := vs.text?

/-! ### Logical lines -/

/-- Where the end of a line leaves its reader. -/
inductive LineState where
  | complete
  /-- After white space: a comment may begin. -/
  | blank
  | escape
  | single
  | singleEscape
  | double
  | doubleEscape
  | comment
deriving DecidableEq, Repr

/-- Read one character of a line. -/
def LineState.next (s : LineState) (c : Char) : LineState :=
  let opened : LineState :=
    match c with
    | '\\' => .escape
    | '"' => .double
    | '\'' => .single
    | _ => .complete
  match s with
  | complete => if Text.isBlank c ∧ c ≠ '\n' ∧ c ≠ '\r' then blank else opened
  | blank => if c = '#' then comment else opened
  | escape => complete
  | single => if c = '\'' then complete else if c = '\\' then singleEscape else single
  | singleEscape => single
  | double => if c = '"' then complete else if c = '\\' then doubleEscape else double
  | doubleEscape => double
  | comment => comment

/-- The characters before a comment, and where their end leaves the reader. -/
def scanLine : LineState → List Char → List Char × LineState
  | s, [] => ([], s)
  | s, c :: cs =>
    let next := s.next c
    if next = .comment then ([], .comment)
    else
      let (kept, last) := scanLine next cs
      (c :: kept, last)

/-- A line without its end. -/
def chomp (cs : List Char) : List Char :=
  match cs.reverse with
  | '\n' :: '\r' :: rest => rest.reverse
  | '\n' :: rest => rest.reverse
  | _ => cs

/-- Put physical lines together.  The result ends early at a quote that is never closed, which is
told by `none`. -/
def logicalLines (s : LineState) (pending : List Char) : List (List Char) →
    List (Option (List Char))
  | [] => if s = .complete then [] else [none]
  | line :: rest =>
    let whole := pending ++ line
    if (Text.trimStart whole).head? = some '#' then logicalLines .complete [] rest
    else
      match scanLine s line with
      | (_, .complete) => some (chomp whole) :: logicalLines .complete [] rest
      | (kept, .comment) => some (pending ++ kept) :: logicalLines .complete [] rest
      | (_, s) => logicalLines s whole rest

/-! ### Values -/

/-- What the reader of a value is in the middle of. -/
inductive Value.Mode where
  | plain
  | escaped
  | single
  /-- In a name after `$`. -/
  | name (read : List Char)
  /-- In a name after `${`. -/
  | braced (read : List Char)
  /-- Only a comment may follow. -/
  | ended
  /-- A comment has begun. -/
  | comment
deriving DecidableEq, Repr

/-- A value in the making; its characters are in reverse. -/
structure Value where
  mode : Value.Mode := .plain
  /-- Whether a double quote is open. -/
  double : Bool := false
  chars : List Char := []

namespace Value

/-- Append characters. -/
def push (v : Value) (cs : List Char) : Value := { v with chars := cs.reverse ++ v.chars }

/-- Read one character; none if it cannot stand here.  Names consist of ASCII letters and digits. -/
def step (look : String → String) (v : Value) (c : Char) : Option Value :=
  let named (read : List Char) : Value := v.push (look (String.ofList read)).toList
  match v.mode with
  | .comment => some v
  | .ended =>
    if c = ' ' ∨ c = '\t' then some v
    else if c = '#' then some { v with mode := .comment }
    else none
  | .escaped =>
    if c ∈ ['\\', '\'', '"', '$', ' '] then some { v.push [c] with mode := .plain }
    else if c = 'n' then some { v.push ['\n'] with mode := .plain }
    else none
  | .single => some (if c = '\'' then { v with mode := .plain } else v.push [c])
  | .name read =>
    if c.isAlphanum then some { v with mode := .name (read ++ [c]) }
    else if c = '\x7b' ∧ read.isEmpty then some { v with mode := .braced [] }
    else if c = '$' then some { named read with mode := .name [] }
    else some { (named read).push [c] with mode := .plain }
  | .braced read =>
    if c = '\x7d' then some { named read with mode := .plain }
    else some { v with mode := .braced (read ++ [c]) }
  | .plain =>
    if c = '$' then some { v with mode := .name [] }
    else if c = '\\' then some { v with mode := .escaped }
    else if v.double then
      some (if c = '"' then { v with double := false } else v.push [c])
    else if c = '\'' then some { v with mode := .single }
    else if c = '"' then some { v with double := true }
    else if c = ' ' ∨ c = '\t' then some { v with mode := .ended }
    else some (v.push [c])

/-- The text of a value whose characters have all been read. -/
def finish (look : String → String) (v : Value) : Option String :=
  match v.mode with
  | .single => none
  | .braced _ => none
  | .name read =>
    if v.double then none
    else some (String.ofList (v.chars.reverse) ++ look (String.ofList read))
  | _ => if v.double then none else some (String.ofList v.chars.reverse)

/-- The text of a value. -/
def text? (look : String → String) (cs : List Char) : Option String :=
  (cs.foldlM (step look) {}).bind (finish look)

end Value

/-! ### Assignments -/

/-- A name at the start of a line, and what follows it without white space. -/
def nameAt? (cs : List Char) : Option (String × List Char) :=
  match cs with
  | [] => none
  | c :: _ =>
    if c.isAlpha ∨ c = '_' then
      let inside (c : Char) : Bool := c.isAlphanum || c == '_' || c == '.'
      some (String.ofList (cs.takeWhile inside), Text.trimStart (cs.dropWhile inside))
    else none

/-- What follows an equals sign. -/
def afterEquals? : List Char → Option (List Char)
  | '=' :: rest => some (Text.trimStart rest)
  | _ => none

/-- The name that a line assigns to and the text of the value. -/
def assigned? (cs : List Char) : Option (String × List Char) := do
  let (name, rest) ← nameAt? cs
  match afterEquals? rest with
  | some value => some (name, value)
  | none =>
    if name = "export" then
      let (name, rest) ← nameAt? rest
      some (name, ← afterEquals? rest)
    else none

/-- Whether a text is empty or starts with `#`. -/
def saysNothing (cs : List Char) : Bool := cs.isEmpty || cs.head? == some '#'

/-- The variables and the assignments of the file so far. -/
structure Loading where
  vars : Variables
  earlier : List (String × String) := []

/-- The value of a name inside the file. -/
def Loading.look (l : Loading) (name : String) : String :=
  match l.vars.text? name with
  | some s => s
  | none => (l.earlier.lookup name).getD ""

/-- Read a logical line; none if it is malformed. -/
def Loading.line? (l : Loading) (line : List Char) : Option Loading := do
  let cs := Text.trimStart (Text.trimEnd line)
  if saysNothing cs then some l
  else
    let (name, value) ← assigned? cs
    let text ← if saysNothing value then some "" else Value.text? l.look value
    let vars :=
      if (l.vars.text? name).isSome then l.vars else l.vars.put name text
    some { vars, earlier := (name, text) :: l.earlier }

/-- Read logical lines up to the first that is malformed. -/
def Loading.lines (l : Loading) : List (Option (List Char)) → Loading
  | [] => l
  | none :: _ => l
  | some line :: rest =>
    match l.line? line with
    | some l => l.lines rest
    | none => l

/-- The lines of a file with their ends. -/
def splitLines (bs : Bytes) : List Bytes :=
  bs.foldr (fun b lines =>
    match lines with
    | [] => [[b]]
    | line :: rest => if b = 10 then [b] :: line :: rest else (b :: line) :: rest) []

/-- The lines of a file that are texts, up to the first that is none. -/
def textLines (bs : Bytes) : List (List Char) :=
  let lines := (splitLines bs).map Utf8.decode
  (lines.takeWhile Option.isSome).filterMap id

/-- A file without the mark that tells the order of its bytes. -/
def withoutMark : Bytes → Bytes
  | 0xEF :: 0xBB :: 0xBF :: rest => rest
  | bs => bs

/-- Add the assignments of a file. -/
def load (vs : Variables) (file : Bytes) : Variables :=
  ({ vars := vs : Loading }.lines
    (logicalLines .complete [] (textLines (withoutMark file)))).vars

end Variables

end ReadThrough.Cli
