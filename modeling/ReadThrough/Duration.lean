/-! # Durations and instants

Spans of time and points in time, both counted in whole nanoseconds.

* **Durations** (`Duration`) are printed with the largest unit that leaves a whole part:
  seconds, milliseconds, microseconds or nanoseconds, followed by the fraction without its
  trailing zeros (`Duration.text`).
* **Instants** (`Instant`) count from the start of the run.  The clock cannot name an instant
  beyond `Instant.last`; moving past it is the one arithmetic fault of the system
  (`Instant.after? = none`). -/

namespace ReadThrough

/-- A span of time, held as its whole number of nanoseconds. -/
structure Duration where
  nanos : Nat
deriving DecidableEq, Repr, Inhabited

namespace Duration

/-- Nanoseconds in one second. -/
def nanosPerSec : Nat := 1000000000

/-- Nanoseconds in one millisecond. -/
def nanosPerMilli : Nat := 1000000

/-- Nanoseconds in one microsecond. -/
def nanosPerMicro : Nat := 1000

/-- A whole number of seconds. -/
def ofSecs (secs : Nat) : Duration := ⟨secs * nanosPerSec⟩

/-- A whole number of milliseconds. -/
def ofMillis (millis : Nat) : Duration := ⟨millis * nanosPerMilli⟩

/-- Seconds and the nanoseconds beyond them. -/
def ofParts (secs nanos : Nat) : Duration := ⟨secs * nanosPerSec + nanos⟩

/-- The whole seconds of a duration. -/
def secs (d : Duration) : Nat := d.nanos / nanosPerSec

/-- The nanoseconds beyond the whole seconds. -/
def subsecNanos (d : Duration) : Nat := d.nanos % nanosPerSec

/-- The whole milliseconds of a duration. -/
def millis (d : Duration) : Nat := d.nanos / nanosPerMilli

/-- Whether no time passes at all. -/
def isZero (d : Duration) : Bool := d.nanos == 0

theorem ofParts_secs_subsecNanos (d : Duration) : ofParts d.secs d.subsecNanos = d := by
  cases d
  simp [ofParts, secs, subsecNanos, Nat.div_add_mod']

/-- Decimal digits of `n`, padded with zeros on the left to `width`. -/
def padded (width n : Nat) : List Char :=
  let digits := Nat.toDigits 10 n
  List.replicate (width - digits.length) '0' ++ digits

/-- The point and the `width`-digit fraction `frac` without its trailing zeros, or nothing for a
zero fraction. -/
def fractionText (width frac : Nat) : List Char :=
  match ((padded width frac).reverse.dropWhile (· == '0')).reverse with
  | [] => []
  | digits => '.' :: digits

/-- Decimal text of `n` units of `10 ^ width` parts each, in units. -/
def unitText (width n : Nat) : List Char :=
  Nat.toDigits 10 (n / Nat.pow 10 width) ++ fractionText width (n % Nat.pow 10 width)

/-- The text of a duration: the largest unit with a non-zero whole part, `0ns` for nothing. -/
def text (d : Duration) : String :=
  if nanosPerSec ≤ d.nanos then String.ofList (unitText 9 d.nanos) ++ "s"
  else if nanosPerMilli ≤ d.nanos then String.ofList (unitText 6 d.nanos) ++ "ms"
  else if nanosPerMicro ≤ d.nanos then String.ofList (unitText 3 d.nanos) ++ "µs"
  else String.ofList (unitText 0 d.nanos) ++ "ns"

end Duration

/-- A point in time: nanoseconds since the start of the run. -/
abbrev Instant := Nat

namespace Instant

/-- The last instant that the clock can name.  The clock holds seconds in a signed 64-bit word,
and it was running for at least a second when the run started. -/
def last : Instant := (UInt64.size / 2 - 1) * Duration.nanosPerSec - 1

/-- The instant `d` after `now`, if the clock can name it. -/
def after? (now : Instant) (d : Duration) : Option Instant :=
  if now + d.nanos ≤ last then some (now + d.nanos) else none

/-- The last word of whoever asks the clock for an instant that it cannot name. -/
def overflowText : String := "overflow when adding duration to instant"

/-- The deadline of a wait of length `d`; a wait too long for the clock has none. -/
def deadline (now : Instant) (d : Duration) : Option Instant := now.after? d

/-- The whole milliseconds since the start of the run. -/
def millis (t : Instant) : Nat := t / Duration.nanosPerMilli

/-- The first whole millisecond that is not before `t`: timers fire on whole milliseconds. -/
def tick (t : Instant) : Instant :=
  (t + Duration.nanosPerMilli - 1) / Duration.nanosPerMilli * Duration.nanosPerMilli

end Instant

end ReadThrough
