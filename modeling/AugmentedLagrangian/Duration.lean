/- # AugmentedLagrangian.Duration — lengths of time

A duration is a whole number of nanoseconds, as many as fit in `2 ^ 64` seconds.  It is read as
seconds and nanoseconds below one second, and as a floating-point number of seconds in both
directions: `toSeconds` adds the two parts in double precision, and `ofSeconds` takes the nearest
nanosecond of a number that is not negative.
-/
import AugmentedLagrangian.Decimal.Binary64

namespace AugmentedLagrangian

set_option autoImplicit false

/-- The nanoseconds of a second. -/
def nanosPerSecond : Nat :=
  1000000000

/-- As many seconds as words of 64 bits count, and no duration has. -/
def secondsLimit : Nat :=
  0x10000000000000000

/-- A length of time in nanoseconds. -/
structure Duration where
  nanoseconds : Nat
  inRange : nanoseconds < secondsLimit * nanosPerSecond
  deriving DecidableEq

namespace Duration

/-- Nanoseconds, unless they are too many. -/
def ofNanoseconds (n : Nat) : Option Duration :=
  if h : n < secondsLimit * nanosPerSecond then some ⟨n, h⟩ else none

/-- Seconds and nanoseconds.  Nanoseconds beyond one second carry. -/
def of (seconds nanoseconds : Nat) : Option Duration :=
  ofNanoseconds (seconds * nanosPerSecond + nanoseconds)

def zero : Duration :=
  ⟨0, by decide⟩

def fiveMinutes : Duration :=
  ⟨300 * nanosPerSecond, by decide⟩

instance : Inhabited Duration :=
  ⟨zero⟩

/-- The whole seconds. -/
def seconds (d : Duration) : Nat :=
  d.nanoseconds / nanosPerSecond

/-- The nanoseconds beyond the whole seconds. -/
def subsecond (d : Duration) : Nat :=
  d.nanoseconds % nanosPerSecond

/-- The two durations together, unless that is too long. -/
def add? (a b : Duration) : Option Duration :=
  ofNanoseconds (a.nanoseconds + b.nanoseconds)

/-- The number of seconds in double precision. -/
def toSeconds (d : Duration) : Float :=
  Binary64.ofNat d.seconds + Binary64.ofNat d.subsecond / 1e9

/-- The duration nearest to a number of seconds, a tie to the even nanosecond.  Negative numbers,
those of `2 ^ 64` seconds and more, and what is no number are no durations. -/
def ofSeconds (x : Float) : Option Duration :=
  let word := Binary64.wordOf x
  if x < 0.0 ∨ Binary64.infinityWord ≤ word then none
  else ofNanoseconds (Binary64.roundDiv (Binary64.units word * nanosPerSecond) Binary64.unitsPerOne)

end Duration

end AugmentedLagrangian
