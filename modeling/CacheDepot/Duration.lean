/-!
# Lengths of time

A length of time has nanosecond resolution and a largest value. Timestamps are whole
milliseconds since the Unix epoch in 64 bits: a length is cut down to its low 64 bits of whole
milliseconds before it is added to one, and the sum stops at the largest timestamp. Nobody waits
longer than thirty years at a time.
-/

namespace CacheDepot

/-- The largest 64-bit timestamp, in milliseconds. -/
def maxMillis : Nat := UInt64.size - 1

/-- The nanoseconds of a millisecond. -/
def nanosPerMilli : Nat := 1000000

/-- The nanoseconds of a microsecond. -/
def nanosPerMicro : Nat := 1000

/-- A length of time. -/
structure Duration where
  nanos : Nat
  deriving DecidableEq, Repr

namespace Duration

/-- The longest length of time: one nanosecond less than `2 ^ 64` seconds. -/
def longest : Duration := ⟨UInt64.size * 1000000000 - 1⟩

/-- A number of milliseconds. -/
def ofMillis (n : Nat) : Duration := ⟨n * nanosPerMilli⟩

/-- A number of microseconds. -/
def ofMicros (n : Nat) : Duration := ⟨n * nanosPerMicro⟩

/-- Whole microseconds. -/
def micros (d : Duration) : Nat := d.nanos / nanosPerMicro

/-- The low 64 bits of the number of whole milliseconds. -/
def wholeMillis (d : Duration) : Nat := d.nanos / nanosPerMilli % UInt64.size

/-- Whether no time passes. -/
def isZero (d : Duration) : Bool := d.nanos == 0

/-- Twice the length, at most the longest. -/
def doubled (d : Duration) : Duration := ⟨min (2 * d.nanos) longest.nanos⟩

/-- The shorter of two lengths. -/
def shorter (d e : Duration) : Duration := ⟨min d.nanos e.nanos⟩

end Duration

/-- The timestamp that lies `d` after `now`. -/
def timestampAfter (now : Nat) (d : Duration) : Nat :=
  min (now + d.wholeMillis) maxMillis

/-- The first whole millisecond that is not before a moment given in nanoseconds. Timers wait
for it. -/
def timerMillis (nanos : Nat) : Nat := (nanos + (nanosPerMilli - 1)) / nanosPerMilli

/-- The longest wait, in milliseconds: thirty years of 365 days. -/
def longestWait : Nat := 30 * 365 * 86400000

/-- The time at which a wait of this many milliseconds ends that begins at `now`. -/
def waitEnd (now millis : Nat) : Nat := now + min millis longestWait

theorem le_waitEnd (now millis : Nat) : now ≤ waitEnd now millis := Nat.le_add_right _ _

theorem waitEnd_eq_self {now millis : Nat} : waitEnd now millis = now ↔ millis = 0 := by
  simp only [waitEnd, longestWait]
  omega

end CacheDepot
