import ReadThrough.Settings

/-! # Settings from the environment

The settings of a process (`ProcessSettings`) as its environment variables give them.  A variable
that is not set keeps its default; only the address of the store has none. -/

namespace ReadThrough

/-- The settings of a process. -/
structure ProcessSettings where
  storeUrl : String
  cache : Settings
  telemetryEndpoint : Option String
  logLevel : String
deriving DecidableEq, Repr

namespace ProcessSettings

/-- The variables that are set. -/
abbrev Environment := String → Option String

/-- The number that a variable holds, if it is set. -/
def number? (env : Environment) (name : String) : Except Error (Option Nat) :=
  match env name with
  | none => .ok none
  | some raw =>
    match Text.readNat (UInt64.size - 1) raw.toList with
    | .ok n => .ok (some n)
    | .error p => .error (.config (.badVariable name raw p))

/-- The settings of a cache. -/
def cacheOf (env : Environment) : Except Error Settings := do
  let standard : Settings := {}
  let workers ← number? env "RTCACHE_WORKERS"
  let errorTtl ← number? env "RTCACHE_ERROR_TTL_SECS"
  let waitTimeout ← number? env "RTCACHE_WAIT_TIMEOUT_SECS"
  let pollTimeout ← number? env "RTCACHE_POLL_TIMEOUT_MS"
  .ok {
    queue := (env "RTCACHE_QUEUE").getD standard.queue
    workers := workers.getD standard.workers
    errorTtl := (errorTtl.map .ofSecs).getD standard.errorTtl
    waitTimeout := match waitTimeout with
      | some 0 => none
      | some secs => some (.ofSecs secs)
      | none => standard.waitTimeout
    pollTimeout := (pollTimeout.map .ofMillis).getD standard.pollTimeout }

/-- The settings of a process.  The settings of the cache are checked before the address of the
store is asked for. -/
def ofEnvironment (env : Environment) : Except Error ProcessSettings := do
  let cache ← (← cacheOf env).validate
  match env "REDIS_URL" with
  | none => .error (.config (.missingVariable "REDIS_URL"))
  | some storeUrl =>
    .ok {
      storeUrl, cache, telemetryEndpoint := env "OTEL_ENDPOINT"
      logLevel := (env "LOG_LEVEL").getD "info" }

end ProcessSettings

end ReadThrough
