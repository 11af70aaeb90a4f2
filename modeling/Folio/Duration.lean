/-
# Lengths of time

A duration is a whole number of nanoseconds that fits sixty-four bits of seconds and one second's
worth of nanoseconds beyond them.  Arithmetic that would leave that range stops at its end.
-/

namespace Folio

/-- Nanoseconds in a second. -/
def nanosPerSecond : Nat := 1000000000

/-- Nanoseconds in a millisecond. -/
def nanosPerMilli : Nat := 1000000

/-- Seconds stay below `2^64`. -/
def secondsBound : Nat := 18446744073709551616

/-- The most nanoseconds that a duration can have. -/
def maxNanos : Nat := secondsBound * nanosPerSecond - 1

/-- **A length of time**, counted in nanoseconds. -/
structure Duration where
  nanos : Nat
  nanos_le : nanos ≤ maxNanos := by decide
  deriving DecidableEq, Repr

namespace Duration

/-- The longest duration. -/
def max : Duration := ⟨maxNanos, Nat.le_refl _⟩

/-- A number of nanoseconds as a duration, cut off at the longest one. -/
def ofNanos (n : Nat) : Duration := ⟨Nat.min n maxNanos, Nat.min_le_right ..⟩

/-- A number of seconds and the nanoseconds beyond them, if they are no more than the longest
duration has. -/
def ofParts? (seconds nanos : Nat) : Option Duration :=
  if h : seconds * nanosPerSecond + nanos ≤ maxNanos then
    some ⟨seconds * nanosPerSecond + nanos, h⟩
  else none

/-- A number of seconds, cut off at the longest duration. -/
def ofSeconds (n : Nat) : Duration := ofNanos (n * nanosPerSecond)

/-- A number of milliseconds. -/
def ofMillis (n : Nat) : Duration := ofNanos (n * nanosPerMilli)

/-- The whole seconds of a duration. -/
def seconds (d : Duration) : Nat := d.nanos / nanosPerSecond

/-- The nanoseconds beyond the whole seconds. -/
def subsecondNanos (d : Duration) : Nat := d.nanos % nanosPerSecond

/-- The milliseconds that a timer of this length waits: a started millisecond counts. -/
def millisUp (d : Duration) : Nat := (d.nanos + (nanosPerMilli - 1)) / nanosPerMilli

/-- A multiple of a duration, cut off at the longest one. -/
def scale (d : Duration) (factor : Nat) : Duration := ofNanos (d.nanos * factor)

/-- The longer of two durations. -/
def longer (a b : Duration) : Duration := if a.nanos ≤ b.nanos then b else a

theorem nanos_ofNanos (n : Nat) : (ofNanos n).nanos = Nat.min n maxNanos := rfl

theorem nanos_longer (a b : Duration) : (longer a b).nanos = Nat.max a.nanos b.nanos := by
  unfold longer
  split <;> simp only [Nat.max_def] <;> split <;> omega

theorem nanos_eq_parts (d : Duration) :
    d.seconds * nanosPerSecond + d.subsecondNanos = d.nanos := by
  simp only [seconds, subsecondNanos, Nat.div_add_mod']

end Duration

end Folio
