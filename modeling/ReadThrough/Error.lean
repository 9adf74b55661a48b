import ReadThrough.Duration
import ReadThrough.Keys
import ReadThrough.Text.Integer
import ReadThrough.Text.Quoted

/-! # Errors

The ways in which an operation of the cache can fail (`Error`), and the one function that words
them (`Error.message`). -/

namespace ReadThrough

/-- What is wrong with the settings. -/
inductive SettingsProblem where
  | emptyQueueName
  | noErrorTtl
  | noPollTimeout
  /-- Something is to be computed and there is no worker to do it. -/
  | noWorkers
  /-- The settings file does not have the form that it should have. -/
  | badDocument
  | unreadableFile (path reason : String)
  | badVariable (name raw : String) (problem : Text.IntegerProblem)
  | missingVariable (name : String)
  | other (text : String)
deriving DecidableEq, Repr, Inhabited

namespace SettingsProblem

/-- The wording of a problem. -/
def message : SettingsProblem → String
  | emptyQueueName => "queue name must not be empty"
  | noErrorTtl => "error ttl must be positive"
  | noPollTimeout => "poll timeout must be positive"
  | noWorkers => "a compute function needs at least one worker"
  | badDocument => "bad cache config"
  | unreadableFile path reason => "cannot read cache config " ++ path ++ ": " ++ reason
  | badVariable name raw problem =>
    "invalid value " ++ Text.quote raw ++ " for " ++ name ++ ": " ++ problem.message
  | missingVariable name => "required environment variable " ++ name ++ " is not set"
  | other text => text

end SettingsProblem

/-- Why an operation failed. -/
inductive Error where
  /-- The store broke the conversation or answered with something unreadable. -/
  | store (reason : String)
  /-- A value could not be turned into bytes or back. -/
  | codec (reason : String)
  /-- The computation of `id` failed; `reason` is what was stored for it. -/
  | computation (id : Id) (reason : String)
  /-- The caller was woken and found nothing. -/
  | unavailable (id : Id)
  /-- The caller waited for as long as it was allowed to. -/
  | timedOut (id : Id) (waited : Duration)
  /-- The cache no longer runs. -/
  | shutdown
  /-- The settings cannot be used. -/
  | config (problem : SettingsProblem)
  /-- Input or output failed. -/
  | io (reason : String)
  | other (text : String)
deriving DecidableEq, Repr, Inhabited

namespace Error

/-- The text shown to a user. -/
def message : Error → String
  | store reason => "store error: " ++ reason
  | codec reason => "codec error: " ++ reason
  | computation id reason => "for " ++ id ++ " we received error: " ++ reason
  | unavailable id => "unable to retrieve result for id: " ++ id
  | timedOut id waited => "timed out after " ++ waited.text ++ " waiting for result of " ++ id
  | shutdown => "cache has been shut down"
  | config problem => "configuration error: " ++ problem.message
  | io reason => "io error: " ++ reason
  | other text => text

/-- The name of the kind of an error. -/
def kind : Error → String
  | store _ => "Store"
  | codec _ => "Codec"
  | computation .. => "Computation"
  | unavailable _ => "Unavailable"
  | timedOut .. => "TimedOut"
  | shutdown => "Shutdown"
  | config _ => "Config"
  | io _ => "Io"
  | other _ => "Other"

end Error

end ReadThrough
