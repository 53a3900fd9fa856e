/-!
# Instants and times of day

An instant counts nanoseconds from 1970-01-01T00:00:00Z, and windows of time are plain differences
of these counts. `Instant` carries a mark for those written inside a leap second, which share their
count with the first instants of the following second; sums and comparisons look at the count only.
`elapsed` alone knows that the leap second takes time of its own.
-/

namespace Klaxon

namespace Time

/-- Nanoseconds in a millisecond. -/
def millisecond : Int := 1000000

/-- Nanoseconds in a second. -/
def second : Int := 1000000000

/-- Nanoseconds in a minute. -/
def minute : Int := 60 * second

/-- Nanoseconds in an hour. -/
def hour : Int := 3600 * second

/-- Nanoseconds in a day. -/
def day : Int := 86400 * second

end Time

/-- A point in time. -/
structure Instant where
  /-- Nanoseconds since the epoch. -/
  nanos : Int
  /-- Whether the instant is written as second 60 of its minute. -/
  leap : Bool
  deriving DecidableEq, Inhabited

namespace Instant

/-- The epoch. -/
def epoch : Instant := ⟨0, false⟩

instance : LE Instant := ⟨fun a b => a.nanos ≤ b.nanos⟩
instance : LT Instant := ⟨fun a b => a.nanos < b.nanos⟩

instance (a b : Instant) : Decidable (a ≤ b) := inferInstanceAs (Decidable (a.nanos ≤ b.nanos))
instance (a b : Instant) : Decidable (a < b) := inferInstanceAs (Decidable (a.nanos < b.nanos))

/-- The order of instants is the order of their counts, whatever their marks. -/
theorem le_def {a b : Instant} : a ≤ b ↔ a.nanos ≤ b.nanos := Iff.rfl

/-- The strict order looks at the counts only, too. -/
theorem lt_def {a b : Instant} : a < b ↔ a.nanos < b.nanos := Iff.rfl

/-- The instant a number of nanoseconds later. -/
def add (t : Instant) (nanos : Int) : Instant := ⟨t.nanos + nanos, false⟩

/-- The instant a number of nanoseconds earlier. -/
def sub (t : Instant) (nanos : Int) : Instant := ⟨t.nanos - nanos, false⟩

/-- The nanoseconds from one instant to another. -/
def since (t start : Instant) : Int := t.nanos - start.nanos

/-- A later instant counts more by the difference. -/
@[simp] theorem nanos_add (t : Instant) (d : Int) : (t.add d).nanos = t.nanos + d := rfl

/-- An earlier instant counts less by the difference. -/
@[simp] theorem nanos_sub (t : Instant) (d : Int) : (t.sub d).nanos = t.nanos - d := rfl

/-- The later of two instants, the second one if they count the same. -/
def later (a b : Instant) : Instant := if b < a then a else b

end Instant

/-- A time of day. -/
structure TimeOfDay where
  /-- The second of the day. -/
  second : Nat
  /-- The nanoseconds into it, from `10^9` on in a leap second that follows it. -/
  nano : Nat
  deriving DecidableEq

namespace TimeOfDay

/-- Times of day are ordered by second, then by nanosecond. -/
def le (a b : TimeOfDay) : Bool := a.second < b.second || (a.second == b.second && a.nano ≤ b.nano)

end TimeOfDay

namespace Instant

/-- The second that an instant is written in and the nanoseconds into it, from `10^9` on in a leap
second. -/
def split (t : Instant) : Int × Nat :=
  let s := t.nanos / Time.second
  let n := (t.nanos % Time.second).toNat
  if t.leap then (s - 1, n + 1000000000) else (s, n)

/-- The time of day of an instant. -/
def timeOfDay (t : Instant) : TimeOfDay :=
  let (s, n) := t.split
  ⟨(s % 86400).toNat, n⟩

/-- The leap second between two instants, which their counts leave out: it is seen only where it
holds one of the two and the other one has the later time of day. -/
def leapBetween (t start : Instant) : Int :=
  if start.timeOfDay.second < t.timeOfDay.second && start.leap then Time.second
  else if t.timeOfDay.second < start.timeOfDay.second && t.leap then -Time.second
  else 0

/-- The nanoseconds that passed from one instant to another. -/
def elapsed (t start : Instant) : Int := t.since start + t.leapBetween start

end Instant

end Klaxon
