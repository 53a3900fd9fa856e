import Klaxon.Json.Record
import Klaxon.Time.Instant

/-!
# Rate limits

A rate limit bounds the requests that a channel makes within a minute and within an hour; a bound of
zero is no bound. The limiter remembers the requests it granted, the oldest first, and drops those
that are an hour old. Refusals are not remembered.
-/

namespace Klaxon

/-- The bounds of a channel on its requests. -/
structure RateLimit where
  perMinute : UInt32
  perHour : UInt32
  /-- Requests within a minute that are granted beyond `perMinute`. -/
  burst : UInt32
  deriving DecidableEq

namespace RateLimit

/-- The bounds of a channel that does not define any. -/
def standard : RateLimit := ⟨60, 1000, 10⟩

/-- The fields of a rate limit. -/
def fields : List Field :=
  [field "max_requests_per_minute", field "max_requests_per_hour", field "burst_allowance"]

instance : ToJson RateLimit where
  toJson l := Json.ofMembers
    [("max_requests_per_minute", toJson l.perMinute), ("max_requests_per_hour", toJson l.perHour),
      ("burst_allowance", toJson l.burst)]

instance : FromJson RateLimit where
  fromJson? j := do
    let r ← Record.read fields j
    some {
      perMinute := ← r.withDefault "max_requests_per_minute" standard.perMinute
      perHour := ← r.withDefault "max_requests_per_hour" standard.perHour
      burst := ← r.withDefault "burst_allowance" standard.burst }

/-- Whether there are no bounds. -/
def isUnlimited (l : RateLimit) : Bool := l.perMinute == 0 && l.perHour == 0

end RateLimit

/-- A rate limit with the requests granted under it. -/
structure Limiter where
  limit : RateLimit
  /-- The times of the granted requests, in the order of granting. -/
  granted : List Instant

namespace Limiter

/-- A limiter that has granted nothing yet. -/
def ofLimit (limit : RateLimit) : Limiter := ⟨limit, []⟩

/-- Drops the oldest grants up to a time. -/
def forget (granted : List Instant) (upTo : Instant) : List Instant :=
  granted.dropWhile fun t => decide (t ≤ upTo)

/-- The number of latest grants after a time. -/
def countAfter (granted : List Instant) (start : Instant) : Nat :=
  -- Grants are in order, so that it is enough to look at the latest ones.
  (granted.reverse.takeWhile fun t => decide (start < t)).length

/-- Whether the bound on an hour leaves room. -/
def hasHourRoom (limit : RateLimit) (granted : List Instant) : Bool :=
  limit.perHour == 0 || granted.length < limit.perHour.toNat

/-- Whether the bound on a minute leaves room. -/
def hasMinuteRoom (limit : RateLimit) (granted : List Instant) (now : Instant) : Bool :=
  limit.perMinute == 0 ||
    countAfter granted (now.sub Time.minute) < limit.perMinute.toNat + limit.burst.toNat

/-- Asks for a request; grants it if both bounds leave room. -/
def tryAcquire (l : Limiter) (now : Instant) : Limiter × Bool :=
  if l.limit.isUnlimited then (l, true)
  else
    -- Old grants are dropped even if the request is refused.
    let granted := forget l.granted (now.sub Time.hour)
    if hasHourRoom l.limit granted && hasMinuteRoom l.limit granted now then
      (⟨l.limit, granted ++ [now]⟩, true)
    else (⟨l.limit, granted⟩, false)

/-- The number of grants that are remembered. -/
def size (l : Limiter) : Nat := l.granted.length

end Limiter

end Klaxon
