import ReadThrough.Cli.Shell
import ReadThrough.Pool

/-! # Programs

The programs that compute missing entries.

* **Finding** (`Program.find`).  A name with a slash is a path; any other name is looked for where
  the variable `PATH` says.  There are the small tools and the shell, nothing else.
* **Running** (`Program.run`).  A program gets the id as its last argument; id and priority are
  also in its variables.
* **Results** (`Program.compute`).  What a successful program writes is the value.  Of one that
  fails, the status and what it complains of make the stored failure. -/

namespace ReadThrough.Cli.Program

/-- Why a program could not be started. -/
inductive StartProblem where
  | notFound
  | notExecutable
  /-- A word holds the character that ends texts. -/
  | endInside
deriving DecidableEq, Repr, Inhabited

/-- The wording of a problem. -/
def StartProblem.message : StartProblem → String
  | notFound => "No such file or directory (os error 2)"
  | notExecutable => "Permission denied (os error 13)"
  | endInside => "nul byte found in provided data"

/-- The names of the shell. -/
def shells : List String := ["sh", "dash", "bash"]

/-- The names of all programs. -/
def names : List String :=
  shells ++ ["true", "false", "echo", "printf", "cat", "test", "[", "sleep", "printenv", "seq",
    "env"]

/-- The directories that hold them. -/
def directories : List String := ["/bin", "/usr/bin"]

/-- The directories in which names are looked for. -/
def searched (s : Surroundings) : List String :=
  match s.vars.text? "PATH" with
  | some path => path.splitOn ":"
  | none => directories

/-- The program of a path. -/
def ofPath? (path : String) : Option String :=
  names.find? fun name => directories.any fun d => path == d ++ "/" ++ name

/-- Find a program by its first word. -/
def find (s : Surroundings) (word : String) : Except StartProblem String :=
  if word.contains '/' then
    match ofPath? word with
    | some name => .ok name
    | none =>
      match s.find word with
      | .nothing => .error .notFound
      | _ => .error .notExecutable
  else if word ∈ names ∧ (searched s).any directories.contains then .ok word
  else .error .notFound

/-- The assignments in front of a command, and the rest. -/
def assignments : List String → List (String × String) × List String
  | [] => ([], [])
  | w :: rest =>
    let cs := w.toList
    let name := cs.takeWhile (· != '=')
    match cs.drop name.length with
    | _ :: value =>
      let (more, words) := assignments rest
      ((String.ofList name, String.ofList value) :: more, words)
    | [] => ([], w :: rest)

/-- All variables as lines. -/
def listing (vs : Variables) : Bytes :=
  vs.flatMap fun (name, value) => Utf8.bytes (name ++ "=") ++ value ++ [10]

/-- Run a program.  The number bounds how many programs run inside each other. -/
def runWithin : Nat → Surroundings → List String → Except StartProblem Finished
  | 0, _, _ => .error .notFound
  | _, _, [] => .error .notFound
  | fuel + 1, s, word :: args => do
    if (word :: args).any fun w => w.contains '\x00' then .error .endInside
    else
      let name ← find s word
      let inner (words : List String) (s : Surroundings) : Option Finished :=
        (runWithin fuel s words).toOption
      if name ∈ shells then
        let world : Shell.World := { files := s.files, program := inner }
        let run := Shell.run world s.vars s.input
        match args with
        | "-c" :: script :: name :: positional => .ok (run script name positional)
        | ["-c", script] => .ok (run script word [])
        | ["-c"] => .ok (.failed 2 (word ++ ": 0: -c requires an argument\n"))
        | [] => .ok (run (String.ofList (Utf8.decodeLossy s.input)) word [])
        | file :: positional =>
          match s.find file with
          | .file content =>
            .ok (run (String.ofList (Utf8.decodeLossy content)) file positional)
          | _ => .ok (.failed 2 (word ++ ": 0: cannot open " ++ file ++ ": No such file\n"))
      else if name = "env" then
        let (assigned, words) := assignments args
        let vars := assigned.foldl (fun vs (n, v) => vs.put n v) s.vars
        match words with
        | [] => .ok { out := listing vars }
        | first :: _ =>
          match runWithin fuel { s with vars } words with
          | .ok f => .ok f
          | .error _ =>
            .ok (.failed 127 (word ++ ": " ++ Tool.shownName first
              ++ ": No such file or directory\n"))
      else .ok ((Tool.run? word name s args).getD {})

/-- Run a program. -/
def run (s : Surroundings) (words : List String) : Except StartProblem Finished :=
  runWithin 16 s words

/-- What a program was called with for an id. -/
def surroundings (s : Surroundings) (priority : Priority) (id : Id) : Surroundings :=
  { s with
    input := []
    vars := (s.vars.put "RTCACHE_ID" id).put "RTCACHE_PRIORITY" (Text.decimalText priority) }

/-- The failure of a program that ended badly. -/
def complaint (word : String) (f : Finished) : String :=
  let status := match f.status with
    | some n => Text.decimalText n
    | none => "-1"
  word ++ " exited with status " ++ status ++ ": "
    ++ String.ofList (Text.trim (Utf8.decodeLossy f.err))

/-- Compute the value of an id with a program. -/
def compute (s : Surroundings) (program : List String) (priority : Priority) (id : Id) :
    Computed :=
  match program with
  | [] => .failed "no program configured"
  | word :: _ =>
    match run (surroundings s priority id) (program ++ [id]) with
    | .error p => .failed p.message
    | .ok f => if f.status = some 0 then .value f.out else .failed (complaint word f)

end ReadThrough.Cli.Program
