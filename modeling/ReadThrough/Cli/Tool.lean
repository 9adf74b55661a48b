import ReadThrough.Cli.Variables
import ReadThrough.Settings.Document

/-! # Small tools

Programs that need nothing but their arguments, their variables and some files.

* **Runs** (`Finished`).  What a program wrote and how it ended.
* **Escapes** (`unescape`).  Backslash sequences in the texts of `echo` and `printf`.
* **Tools** (`Tool.run?`).  What each of them does. -/

namespace ReadThrough.Cli

/-- How a program ended, and what it wrote. -/
structure Finished where
  /-- The exit status; none if a signal ended the program. -/
  status : Option Nat := some 0
  out : Bytes := []
  err : Bytes := []
deriving DecidableEq, Repr, Inhabited

/-- What a program finds around it. -/
structure Surroundings where
  vars : Variables := []
  input : Bytes := []
  files : String → Settings.Found := fun _ => .nothing

/-- What is found under a path; some paths are the same everywhere. -/
def Surroundings.find (s : Surroundings) (path : String) : Settings.Found :=
  let relative := if path.startsWith "./" then String.ofList (path.toList.drop 2) else path
  if path = "/dev/null" then .file []
  else if path ∈ [".", "..", "./", "../", "/", "/bin", "/usr", "/usr/bin", "/tmp", "/etc"] then
    .directory
  else s.files relative

/-- A program that succeeded and wrote a text. -/
def Finished.wrote (text : String) : Finished := { out := Utf8.bytes text }

/-- A program that failed with a message. -/
def Finished.failed (status : Nat) (message : String) : Finished :=
  { status := some status, err := Utf8.bytes message }

namespace Tool

/-! ### Escapes -/

/-- Up to `n` octal digits at the start of a text, and the rest. -/
def octal (n : Nat) (cs : List Char) : List Char × List Char :=
  let digits := (cs.take n).takeWhile fun c => '0' ≤ c && c ≤ '7'
  (digits, cs.drop digits.length)

/-- The byte of octal digits. -/
def octalByte (digits : List Char) : UInt8 := UInt8.ofNat (Nat.ofDigitChars 8 digits 0)

/-- The byte of a one-letter escape. -/
def letterByte? : Char → Option UInt8
  | 'a' => some 7
  | 'b' => some 8
  | 'f' => some 12
  | 'n' => some 10
  | 'r' => some 13
  | 't' => some 9
  | 'v' => some 11
  | '\\' => some 92
  | _ => none

theorem length_octal_lt (n : Nat) (cs : List Char) : (octal n cs).2.length ≤ cs.length := by
  simp [octal]

/-- Replace backslash sequences; `true` with the result if `\c` cut it short.  Octal numbers follow
the backslash, after a zero if `zero` is set. -/
def unescape (zero : Bool) : List Char → Bytes × Bool
  | [] => ([], false)
  | '\\' :: c :: cs =>
    match letterByte? c with
    | some b =>
      let (rest, cut) := unescape zero cs
      (b :: rest, cut)
    | none =>
      if c = 'c' then ([], true)
      else if zero ∧ c = '0' then
        let (rest, cut) := unescape zero (octal 3 cs).2
        (octalByte (octal 3 cs).1 :: rest, cut)
      else if !zero ∧ '0' ≤ c ∧ c ≤ '7' then
        let (rest, cut) := unescape zero (octal 2 cs).2
        (octalByte (c :: (octal 2 cs).1) :: rest, cut)
      else
        let (rest, cut) := unescape zero cs
        (92 :: (Utf8.encode [c] ++ rest), cut)
  | c :: cs =>
    let (rest, cut) := unescape zero cs
    (Utf8.encode [c] ++ rest, cut)
termination_by cs => cs.length
decreasing_by
  all_goals simp only [List.length_cons]
  all_goals have := length_octal_lt 2 cs; have := length_octal_lt 3 cs
  all_goals omega

/-- Write words with spaces between them; `-n` in front leaves out the end of the line.  With
`escapes` the words may hold backslash sequences. -/
def echo (escapes : Bool) (words : List String) : Finished :=
  let (newline, words) := match words with
    | "-n" :: rest => (false, rest)
    | words => (true, words)
  let text := " ".intercalate words
  let (bytes, cut) := if escapes then unescape true text.toList else (Utf8.bytes text, false)
  { out := if newline && !cut then bytes ++ [10] else bytes }

/-! ### Formats -/

/-- A text of at least some width. -/
def pad (flags : List Char) (width : Nat) (text : Bytes) : Bytes :=
  let missing := width - text.length
  if flags.contains '-' then text ++ List.replicate missing 32
  else if flags.contains '0' then
    match text with
    | 45 :: digits => 45 :: (List.replicate missing 48 ++ digits)
    | digits => List.replicate missing 48 ++ digits
  else List.replicate missing 32 ++ text

/-- The integer at the start of a text, zero if there is none. -/
def leadingInt (text : String) : Int :=
  match text.toList with
  | '-' :: cs => -(Nat.ofDigitChars 10 (cs.takeWhile Char.isDigit) 0 : Int)
  | '+' :: cs => Nat.ofDigitChars 10 (cs.takeWhile Char.isDigit) 0
  | cs => Nat.ofDigitChars 10 (cs.takeWhile Char.isDigit) 0

/-- An argument under a conversion. -/
def converted (kind : Char) (precision : Option Nat) (arg : String) : Option Bytes :=
  let n := leadingInt arg
  let word := (n % UInt64.size).toNat
  match kind with
  | 's' =>
    let bytes := Utf8.bytes arg
    some (match precision with | some p => bytes.take p | none => bytes)
  | 'b' => some (unescape true arg.toList).1
  | 'c' => some ((Utf8.bytes arg).take 1)
  | 'd' => some (Utf8.encode (Text.decimal n))
  | 'i' => some (Utf8.encode (Text.decimal n))
  | 'u' => some (Utf8.encode (Nat.toDigits 10 word))
  | 'x' => some (Utf8.encode (Nat.toDigits 16 word))
  | 'X' => some (Utf8.encode ((Nat.toDigits 16 word).map Char.toUpper))
  | 'o' => some (Utf8.encode (Nat.toDigits 8 word))
  | _ => none

/-- One pass over a format: what is written and the arguments that are left.  The number bounds the
length of the format. -/
def formatOnce : Nat → List Char → List String → Bytes × List String
  | 0, _, args => ([], args)
  | _, [], args => ([], args)
  | fuel + 1, '%' :: '%' :: cs, args =>
    let (rest, args) := formatOnce fuel cs args
    (37 :: rest, args)
  | fuel + 1, '%' :: cs, args =>
    let flags := cs.takeWhile fun c => c == '-' || c == '0' || c == ' ' || c == '+'
    let cs := cs.drop flags.length
    let width := cs.takeWhile Char.isDigit
    let cs := cs.drop width.length
    let (precision, cs) := match cs with
      | '.' :: more =>
        let digits := more.takeWhile Char.isDigit
        (some (Nat.ofDigitChars 10 digits 0), more.drop digits.length)
      | cs => (none, cs)
    match cs with
    | [] => ([], args)
    | kind :: cs =>
      match converted kind precision (args.head?.getD "") with
      | none => ([], args)
      | some bytes =>
        let (rest, args) := formatOnce fuel cs args.tail
        (pad flags (Nat.ofDigitChars 10 width 0) bytes ++ rest, args)
  | fuel + 1, '\\' :: cs, args =>
    let digits := (octal 3 cs).1
    let taken := if digits.isEmpty then 1 else digits.length
    let (rest, args) := formatOnce fuel (cs.drop taken) args
    ((unescape false ('\\' :: cs.take taken)).1 ++ rest, args)
  | fuel + 1, c :: cs, args =>
    let (rest, args) := formatOnce fuel cs args
    (Utf8.encode [c] ++ rest, args)

/-- Passes over a format as long as arguments are left and each pass takes some. -/
def formatAll : Nat → List Char → List String → Bytes
  | 0, _, _ => []
  | fuel + 1, format, args =>
    let (bytes, left) := formatOnce (format.length + 1) format args
    if left.isEmpty ∨ left.length = args.length then bytes
    else bytes ++ formatAll fuel format left

/-- Write arguments under a format. -/
def printf (words : List String) : Finished :=
  match words with
  | [] => .failed 2 "printf: usage: printf format [arg ...]\n"
  | "--" :: format :: args => { out := formatAll (args.length + 1) format.toList args }
  | format :: args => { out := formatAll (args.length + 1) format.toList args }

/-! ### Files -/

/-- A file name in a message: in quotes if it does not consist of usual characters. -/
def shownName (name : String) : String :=
  let usual (c : Char) : Bool := c.isAlphanum || "%+,-./:=@_".toList.contains c
  if name.isEmpty ∨ !name.toList.all usual then "'" ++ name ++ "'" else name

/-- Write files one after the other; the input stands for no file at all and for `-`. -/
def cat (self : String) (s : Surroundings) (words : List String) : Finished :=
  let one (name : String) : Finished :=
    let complain (reason : String) : Finished :=
      .failed 1 (self ++ ": " ++ shownName name ++ ": " ++ reason ++ "\n")
    if name = "-" then { out := s.input }
    else
      match s.find name with
      | .file content => { out := content }
      | .directory => complain "Is a directory"
      | .nothing => complain "No such file or directory"
  let optionLike (w : String) : Bool := w.startsWith "-" && w != "-"
  let (checked, names) := match words with
    | "--" :: rest => ([], rest)
    | words => (words, words)
  let hint := "Try '" ++ self ++ " --help' for more information.\n"
  match checked.find? optionLike with
  | some w =>
    if w.startsWith "--" then .failed 1 (self ++ ": unrecognized option '" ++ w ++ "'\n" ++ hint)
    else
      let letter := String.ofList ((w.toList.drop 1).take 1)
      .failed 1 (self ++ ": invalid option -- '" ++ letter ++ "'\n" ++ hint)
  | none =>
    if names.isEmpty then { out := s.input }
    else
      names.foldl (fun acc name =>
        let next := one name
        { status := if next.status = some 0 then acc.status else next.status
          out := acc.out ++ next.out, err := acc.err ++ next.err }) {}

/-! ### Conditions -/

/-- Whether a condition holds. -/
def holds (s : Surroundings) : List String → Bool
  | [] => false
  | [w] => !w.isEmpty
  | ["!", w] => w.isEmpty
  | ["-n", w] => !w.isEmpty
  | ["-z", w] => w.isEmpty
  | ["-e", w] => match s.find w with | .nothing => false | _ => true
  | ["-f", w] => match s.find w with | .file _ => true | _ => false
  | ["-d", w] => match s.find w with | .directory => true | _ => false
  | [a, "=", b] => a == b
  | [a, "==", b] => a == b
  | [a, "!=", b] => a != b
  | [a, "-eq", b] => leadingInt a == leadingInt b
  | [a, "-ne", b] => leadingInt a != leadingInt b
  | [a, "-lt", b] => leadingInt a < leadingInt b
  | [a, "-le", b] => leadingInt a ≤ leadingInt b
  | [a, "-gt", b] => leadingInt b < leadingInt a
  | [a, "-ge", b] => leadingInt b ≤ leadingInt a
  | "!" :: rest => !holds s rest
  | _ => false

/-- A condition as the status of a program. -/
def condition (b : Bool) : Finished := { status := some (if b then 0 else 1) }

/-! ### Tools by name -/

/-- Whether a text is a natural number, perhaps with a minus sign or a point. -/
def isNumber (w : String) : Bool :=
  !w.isEmpty && w.toList.all fun c => c.isDigit || c == '-' || c == '.'

/-- All integers from one to another. -/
def sequence (first last : Int) : Finished :=
  let n := (last - first + 1).toNat
  .wrote (String.join ((List.range n).map fun (i : Nat) => Text.decimalText (first + i) ++ "\n"))

/-- Run the tool of a name. -/
def run? (self name : String) (s : Surroundings) (args : List String) : Option Finished :=
  match name with
  | "true" => some {}
  | "false" => some (condition false)
  | "echo" => some (echo false args)
  | "printf" => some (printf args)
  | "cat" => some (cat self s args)
  | "test" => some (condition (holds s args))
  | "[" =>
    if args.getLast? = some "]" then some (condition (holds s args.dropLast))
    else some (.failed 2 (self ++ ": missing ]\n"))
  | "sleep" =>
    if !args.isEmpty && args.all isNumber then some {}
    else
      some (.failed 1 (self ++ ": invalid time interval ‘" ++ args.headD "" ++ "’\n"
        ++ "Try '" ++ self ++ " --help' for more information.\n"))
  | "printenv" =>
    let texts := args.filterMap s.vars.text?
    some { status := some (if texts.length = args.length then 0 else 1)
           out := Utf8.bytes (String.join (texts.map (· ++ "\n"))) }
  | "seq" =>
    match args with
    | [last] => some (sequence 1 (leadingInt last))
    | first :: last :: _ => some (sequence (leadingInt first) (leadingInt last))
    | [] => some (.failed 1 (self ++ ": missing operand\n"))
  | _ => none

end Tool

end ReadThrough.Cli
