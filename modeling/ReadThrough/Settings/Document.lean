import ReadThrough.Settings
import ReadThrough.Settings.Toml
import ReadThrough.Text.Utf8

/-! # Settings files

Settings as a TOML document.  Five keys are known; one that is not given keeps its default, and a
wait timeout of zero means none.  What the document says is checked as all settings are. -/

namespace ReadThrough.Settings

/-- Change the settings as one entry says, if the key is known and the value fits. -/
def assign (s : Settings) : String × Toml.Value → Option Settings
  | ("queue", .text name) => some { s with queue := name }
  | ("workers", .int n) => if 0 ≤ n then some { s with workers := n.toNat } else none
  | ("error_ttl_secs", .int n) =>
    if 0 ≤ n then some { s with errorTtl := .ofSecs n.toNat } else none
  | ("wait_timeout_secs", .int n) =>
    if 0 ≤ n then
      some { s with waitTimeout := if n = 0 then none else some (.ofSecs n.toNat) }
    else none
  | ("poll_timeout_ms", .int n) =>
    if 0 ≤ n then some { s with pollTimeout := .ofMillis n.toNat } else none
  | _ => none

/-- The settings of a document. -/
def ofToml (text : String) : Except Error Settings :=
  match (Toml.parse? text).bind fun entries => entries.foldlM assign {} with
  | none => .error (.config .badDocument)
  | some s => s.validate

/-- What is found under the path of a file. -/
inductive Found where
  | file (content : List UInt8)
  | directory
  | nothing

/-- Why the text of what was found cannot be had. -/
def Found.text : Found → Except String String
  | .file content =>
    match Utf8.string? content with
    | some text => .ok text
    | none => .error "stream did not contain valid UTF-8"
  | .directory => .error "Is a directory (os error 21)"
  | .nothing => .error "No such file or directory (os error 2)"

/-- The settings of a file. -/
def ofFile (path : String) (found : Found) : Except Error Settings :=
  match found.text with
  | .ok text => ofToml text
  | .error reason => .error (.config (.unreadableFile path reason))

end ReadThrough.Settings
