/-! # Shell scripts

The syntax of a small shell language.

* **Words** (`Part`).  A word is made of literal text, parameters and outputs of commands, each
  inside or outside of quotes.
* **Tokens** (`Lexer`).  A script is read character by character into words, operators and
  redirections.
* **Commands** (`Node`).  Simple commands with assignments and redirections, sequences, the
  operators `&&`, `||`, `!` and `|`, groups, subshells and `if`. -/

namespace ReadThrough.Cli.Script

/-- A piece of a word. -/
inductive Part where
  | text (chars : List Char) (quoted : Bool)
  /-- The value of a parameter, or a text in its place if it is empty or not set. -/
  | parameter (name : String) (otherwise : Option (List Char)) (quoted : Bool)
  /-- What a script writes. -/
  | output (script : List Char) (quoted : Bool)
deriving DecidableEq, Repr, Inhabited

/-- A word of a script. -/
abbrev Word := List Part

/-- A token of a script. -/
inductive Token where
  | word (parts : Word)
  | operator (text : String)
  /-- A redirection of a channel; the next word names its target. -/
  | redirection (channel : Nat) (text : String)
deriving DecidableEq, Repr, Inhabited

/-! ### Tokens -/

/-- What the lexer is in the middle of. -/
inductive Mode where
  | plain
  | single
  | escaped
  | dollar
  | name (read : List Char)
  | braced (read : List Char)
  /-- In `$(…)`, with the number of open parentheses. -/
  | command (depth : Nat) (read : List Char)
  | backquoted (read : List Char)
  | comment
  | operator (first : Char)
deriving DecidableEq, Repr, Inhabited

/-- A script that is being read; all lists are in reverse. -/
structure Lexer where
  mode : Mode := .plain
  /-- Whether a double quote is open. -/
  double : Bool := false
  tokens : List Token := []
  parts : List Part := []
  chars : List Char := []
  /-- Whether a word has begun. -/
  begun : Bool := false
  /-- The channel of the redirection that is being read. -/
  channel : Nat := 1

namespace Lexer

/-- End the literal text of a word. -/
def endText (l : Lexer) : Lexer :=
  if l.chars.isEmpty then l
  else { l with parts := .text l.chars.reverse l.double :: l.parts, chars := [] }

/-- End a word. -/
def endWord (l : Lexer) : Lexer :=
  let l := l.endText
  if l.begun then
    { l with tokens := .word l.parts.reverse :: l.tokens, parts := [], begun := false }
  else l

/-- Append a piece to a word. -/
def add (l : Lexer) (p : Part) : Lexer :=
  let l := l.endText
  { l with parts := p :: l.parts, begun := true, mode := .plain }

/-- Append a character to a word. -/
def push (l : Lexer) (c : Char) : Lexer :=
  { l with chars := c :: l.chars, begun := true, mode := .plain }

/-- End the word and append an operator. -/
def sign (l : Lexer) (text : String) : Lexer :=
  let l := l.endWord
  { l with tokens := .operator text :: l.tokens, mode := .plain }

/-- Begin a redirection; a single digit just before it is its channel. -/
def redirect (l : Lexer) (first : Char) : Lexer :=
  let standard := if first = '<' then 0 else 1
  match l.parts, l.chars with
  | [], [c] =>
    if c.isDigit then
      { l with chars := [], begun := false, channel := c.toNat - 48, mode := .operator first }
    else { l.endWord with channel := standard, mode := .operator first }
  | _, _ => { l.endWord with channel := standard, mode := .operator first }

/-- End a redirection. -/
def endRedirect (l : Lexer) (text : String) : Lexer :=
  { l with tokens := .redirection l.channel text :: l.tokens, mode := .plain }

/-- Whether a character may stand in the name of a variable. -/
def inName (c : Char) : Bool := c.isAlphanum || c == '_'

/-- The parameter of `${…}`. -/
def bracedPart (read : List Char) (quoted : Bool) : Part :=
  let name := if (read.head?.map inName).getD false then read.takeWhile inName else read.take 1
  match read.drop name.length with
  | ':' :: '-' :: rest => .parameter (String.ofList name) (some rest) quoted
  | _ => .parameter (String.ofList name) none quoted

/-- Read one character outside of everything. -/
def plain (l : Lexer) (c : Char) : Lexer :=
  if c = '$' then { l with mode := .dollar }
  else if c = '`' then { l.endText with mode := .backquoted [], begun := true }
  else if c = '\\' then { l with mode := .escaped }
  else if c = '"' then { l.endText with double := !l.double, begun := true }
  else if l.double then l.push c
  else if c = '\'' then { l.endText with mode := .single, begun := true }
  else if c = ' ' ∨ c = '\t' then l.endWord
  else if c = '\n' then l.sign ";"
  else if c = ';' ∨ c = '(' ∨ c = ')' then l.sign (String.ofList [c])
  else if c = '&' ∨ c = '|' then { l.endWord with mode := .operator c }
  else if c = '>' ∨ c = '<' then l.redirect c
  else if c = '#' ∧ !l.begun then { l with mode := .comment }
  else l.push c

/-- Read one character. -/
def step (l : Lexer) (c : Char) : Lexer :=
  match l.mode with
  | .plain => l.plain c
  | .single =>
    if c = '\'' then
      { l with parts := .text l.chars.reverse true :: l.parts, chars := [], mode := .plain }
    else { l with chars := c :: l.chars }
  | .escaped =>
    if c = '\n' then { l with mode := .plain }
    else if l.double then
      if c ∈ ['$', '`', '"', '\\'] then l.push c else (l.push '\\').push c
    else l.add (.text [c] true)
  | .dollar =>
    if c = '(' then { l.endText with mode := .command 0 [], begun := true }
    else if c = '\x7b' then { l.endText with mode := .braced [], begun := true }
    else if c.isAlpha ∨ c = '_' then { l.endText with mode := .name [c], begun := true }
    else if c.isDigit ∨ c ∈ ['@', '*', '#', '?', '$'] then
      l.add (.parameter (String.ofList [c]) none l.double)
    else (l.push '$').plain c
  | .name read =>
    if inName c then { l with mode := .name (c :: read) }
    else (l.add (.parameter (String.ofList read.reverse) none l.double)).plain c
  | .braced read =>
    if c = '\x7d' then l.add (bracedPart read.reverse l.double)
    else { l with mode := .braced (c :: read) }
  | .command depth read =>
    if c = ')' then
      if depth = 0 then l.add (.output read.reverse l.double)
      else { l with mode := .command (depth - 1) (c :: read) }
    else { l with mode := .command (if c = '(' then depth + 1 else depth) (c :: read) }
  | .backquoted read =>
    if c = '`' then l.add (.output read.reverse l.double)
    else { l with mode := .backquoted (c :: read) }
  | .comment => if c = '\n' then l.sign ";" else l
  | .operator first =>
    if first = '>' ∨ first = '<' then
      if c = '&' then l.endRedirect (String.ofList [first, '&'])
      else if c = '>' ∧ first = '>' then l.endRedirect ">>"
      else (l.endRedirect (String.ofList [first])).plain c
    else if c = first then l.sign (String.ofList [c, c])
    else (l.sign (String.ofList [first])).plain c

/-- The tokens of a script that was read to its end; none if something is left open. -/
def finish (l : Lexer) : Option (List Token) :=
  let ended (l : Lexer) : List Token := l.endWord.tokens.reverse
  if l.double then none
  else
    match l.mode with
    | .plain => some (ended l)
    | .comment => some (ended l)
    | .escaped => some (ended (l.push '\\'))
    | .dollar => some (ended (l.push '$'))
    | .name read => some (ended (l.add (.parameter (String.ofList read.reverse) none false)))
    | .operator first =>
      if first = '>' ∨ first = '<' then none else some (ended (l.sign (String.ofList [first])))
    | _ => none

end Lexer

/-- The tokens of a script. -/
def tokens? (script : List Char) : Option (List Token) :=
  (script.foldl Lexer.step {}).finish

/-! ### Commands -/

/-- A redirection and the word of its target. -/
structure Redirect where
  channel : Nat
  text : String
  target : Word
deriving DecidableEq, Repr

/-- A command. -/
inductive Node where
  | nothing
  | simple (assignments : List (String × Word)) (words : List Word) (redirects : List Redirect)
  | both (first second : Node)
  | ifOk (first second : Node)
  | ifFailed (first second : Node)
  | inverted (inner : Node)
  | piped (first second : Node)
  | subshell (inner : Node) (redirects : List Redirect)
  | group (inner : Node) (redirects : List Redirect)
  | branch (condition success failure : Node)
deriving Repr, Inhabited

/-- The text of a token that is one unquoted text. -/
def Token.bare? : Token → Option String
  | .word [.text cs false] => some (String.ofList cs)
  | _ => none

/-- Whether a list of tokens starts with a reserved word. -/
def startsWith (w : String) : List Token → Bool
  | t :: _ => t.bare? == some w
  | [] => false

/-- The words that end a list of commands. -/
def closing : List String := ["then", "elif", "else", "fi", "\x7d"]

/-- Take a reserved word. -/
def expect? (w : String) : List Token → Option (List Token)
  | t :: rest => if t.bare? = some w then some rest else none
  | [] => none

/-- Leave out separators. -/
def skipSeparators : List Token → List Token
  | .operator ";" :: rest => skipSeparators rest
  | ts => ts

/-- The name and value of a word that is an assignment. -/
def assignment? (w : Word) : Option (String × Word) :=
  match w with
  | .text cs false :: rest =>
    let name := cs.takeWhile Lexer.inName
    match cs.drop name.length, name.head? with
    | '=' :: value, some c =>
      if c.isDigit then none
      else
        some (String.ofList name,
          if value.isEmpty then rest else .text value false :: rest)
    | _, _ => none
  | _ => none

/-- Redirections at the start of a list of tokens. -/
def redirects : List Token → List Redirect × List Token
  | .redirection channel text :: .word target :: rest =>
    let (more, rest) := redirects rest
    (⟨channel, text, target⟩ :: more, rest)
  | ts => ([], ts)

/-- The words and redirections of a simple command. -/
def simpleParts : List Token → List Word × List Redirect × List Token
  | .word w :: rest =>
    let (words, rs, rest) := simpleParts rest
    (w :: words, rs, rest)
  | .redirection channel text :: .word target :: rest =>
    let (words, rs, rest) := simpleParts rest
    (words, ⟨channel, text, target⟩ :: rs, rest)
  | ts => ([], [], ts)

/-- Split the assignments off the words of a command. -/
def splitAssignments : List Word → List (String × Word) × List Word
  | [] => ([], [])
  | w :: rest =>
    match assignment? w with
    | some a =>
      let (more, words) := splitAssignments rest
      (a :: more, words)
    | none => ([], w :: rest)

/-- A simple command. -/
def simple? (ts : List Token) : Option (Node × List Token) :=
  match simpleParts ts with
  | ([], [], _) => none
  | (words, rs, rest) =>
    let (assignments, words) := splitAssignments words
    some (.simple assignments words rs, rest)

mutual

/-- Commands up to the end or to a word that closes them. -/
def list? : Nat → List Token → Option (Node × List Token)
  | 0, _ => none
  | fuel + 1, ts => do
    let ts := skipSeparators ts
    match ts with
    | [] => some (.nothing, [])
    | .operator ")" :: _ => some (.nothing, ts)
    | t :: _ =>
      if (t.bare?.map closing.contains).getD false then some (.nothing, ts)
      else
        let (first, ts) ← andOr? fuel ts
        let (second, ts) ← list? fuel ts
        some (.both first second, ts)

/-- Commands joined by `&&` and `||`. -/
def andOr? : Nat → List Token → Option (Node × List Token)
  | 0, _ => none
  | fuel + 1, ts => do
    let (first, ts) ← pipeline? fuel ts
    joined? fuel first ts

/-- What follows a command that may be joined to others. -/
def joined? : Nat → Node → List Token → Option (Node × List Token)
  | 0, _, _ => none
  | fuel + 1, first, ts =>
    match ts with
    | .operator "&&" :: ts => do
      let (second, ts) ← pipeline? fuel (skipSeparators ts)
      joined? fuel (.ifOk first second) ts
    | .operator "||" :: ts => do
      let (second, ts) ← pipeline? fuel (skipSeparators ts)
      joined? fuel (.ifFailed first second) ts
    | .operator ";" :: _ => some (first, ts)
    | .operator ")" :: _ => some (first, ts)
    | [] => some (first, [])
    | t :: _ => if (t.bare?.map closing.contains).getD false then some (first, ts) else none

/-- Commands joined by pipes. -/
def pipeline? : Nat → List Token → Option (Node × List Token)
  | 0, _ => none
  | fuel + 1, ts => do
    if startsWith "!" ts then
      let (inner, ts) ← pipeline? fuel (ts.drop 1)
      some (.inverted inner, ts)
    else
      let (first, ts) ← command? fuel ts
      match ts with
      | .operator "|" :: ts => do
        let (second, ts) ← pipeline? fuel (skipSeparators ts)
        some (.piped first second, ts)
      | ts => some (first, ts)

/-- One command. -/
def command? : Nat → List Token → Option (Node × List Token)
  | 0, _ => none
  | fuel + 1, ts => do
    match ts with
    | .operator "(" :: ts =>
      match ← list? fuel ts with
      | (inner, .operator ")" :: ts) =>
        let (rs, ts) := redirects ts
        some (.subshell inner rs, ts)
      | _ => none
    | ts =>
      if startsWith "\x7b" ts then
        let (inner, ts) ← list? fuel (ts.drop 1)
        let (rs, ts) := redirects (← expect? "\x7d" ts)
        some (.group inner rs, ts)
      else if startsWith "if" ts then branch? fuel (ts.drop 1)
      else simple? ts

/-- What follows `if` or `elif`. -/
def branch? : Nat → List Token → Option (Node × List Token)
  | 0, _ => none
  | fuel + 1, ts => do
    let (condition, ts) ← list? fuel ts
    let (success, ts) ← list? fuel (← expect? "then" ts)
    if startsWith "elif" ts then
      let (failure, ts) ← branch? fuel (ts.drop 1)
      some (.branch condition success failure, ts)
    else if startsWith "else" ts then
      let (failure, ts) ← list? fuel (ts.drop 1)
      some (.branch condition success failure, ← expect? "fi" ts)
    else some (.branch condition success .nothing, ← expect? "fi" ts)

end

/-- The commands of a script; none if it is malformed. -/
def parse? (script : List Char) : Option Node := do
  let ts ← tokens? script
  let (node, rest) ← list? (8 * ts.length + 8) ts
  if rest.isEmpty then some node else none

end ReadThrough.Cli.Script
