import Klaxon.Decimal.Layout
import Klaxon.Dispatch.Error
import Klaxon.Json.Record

/-!
# Retrying

A retry policy spaces the attempts to deliver a message: the delay grows by a factor with every
failed attempt and stops at a cap. `max_retries` counts the attempts after the first one.

The delay is computed in doubles. Powers are taken by squaring, and where the product is not finite
the cap counts.
-/

namespace Klaxon

/-- The spacing of attempts on a channel. -/
structure RetryPolicy where
  maxRetries : UInt32
  retryDelayMs : UInt64
  backoffMultiplier : Float
  maxRetryDelayMs : UInt64

namespace RetryPolicy

/-- The policy of a channel that does not define one. -/
def standard : RetryPolicy := ⟨3, 5000, 2.0, 300000⟩

/-- The fields of a retry policy. -/
def fields : List Field :=
  [field "max_retries", field "retry_delay_ms", field "backoff_multiplier",
    field "max_retry_delay_ms"]

instance : ToJson RetryPolicy where
  toJson p := Json.ofMembers
    [("max_retries", toJson p.maxRetries), ("retry_delay_ms", toJson p.retryDelayMs),
      ("backoff_multiplier", toJson p.backoffMultiplier),
      ("max_retry_delay_ms", toJson p.maxRetryDelayMs)]

instance : FromJson RetryPolicy where
  fromJson? j := do
    let r ← Record.read fields j
    some {
      maxRetries := ← r.withDefault "max_retries" standard.maxRetries
      retryDelayMs := ← r.withDefault "retry_delay_ms" standard.retryDelayMs
      backoffMultiplier := ← r.withDefault "backoff_multiplier" standard.backoffMultiplier
      maxRetryDelayMs := ← r.withDefault "max_retry_delay_ms" standard.maxRetryDelayMs }

/-- The longest cap of the delay: one day. -/
def longestDelayMs : UInt64 := 86400000

/-- What is wrong with a retry policy. -/
inductive Fault where
  /-- The factor is below one or not finite. -/
  | shrinking (multiplier : Float)
  | capTooLong (capMs : UInt64)
  | capBelowDelay (capMs delayMs : UInt64)

/-- The wording of a fault. -/
def Fault.message : Fault → String
  | .shrinking multiplier =>
    "backoff_multiplier must be >= 1.0, got " ++ Decimal.plainText multiplier
  | .capTooLong capMs =>
    "max_retry_delay_ms (" ++ toString capMs.toNat ++ ") exceeds the maximum of " ++
      toString longestDelayMs.toNat
  | .capBelowDelay capMs delayMs =>
    "max_retry_delay_ms (" ++ toString capMs.toNat ++ ") is below retry_delay_ms (" ++
      toString delayMs.toNat ++ ")"

/-- Checks a policy. -/
def validate (p : RetryPolicy) : Except Fault Unit :=
  if !p.backoffMultiplier.isFinite || p.backoffMultiplier < 1.0 then
    .error (.shrinking p.backoffMultiplier)
  else if longestDelayMs < p.maxRetryDelayMs then .error (.capTooLong p.maxRetryDelayMs)
  else if p.maxRetryDelayMs < p.retryDelayMs then
    .error (.capBelowDelay p.maxRetryDelayMs p.retryDelayMs)
  else .ok ()

/-- Multiplies a power of a base to an accumulator, by squaring the base. -/
def powerInto (acc base : Float) (n : Nat) : Float :=
  let acc := if n % 2 = 1 then acc * base else acc
  if n / 2 = 0 then acc else powerInto acc (base * base) (n / 2)
termination_by n
decreasing_by omega

/-- A power with a whole exponent. -/
def power (base : Float) (exponent : Int) : Float :=
  let p := powerInto 1.0 base exponent.natAbs
  if exponent < 0 then 1.0 / p else p

/-- The exponent of the factor after a failed attempt: one less than the attempt's number, as a
signed word of 32 bits. -/
def exponentAfter (attempt : UInt32) : Int :=
  -- From `2 ^ 31` on the word is negative and the delay shrinks.
  Int.bmod (attempt.toNat - 1 : Nat) UInt32.size

/-- The milliseconds to wait after a failed attempt. -/
def delayFor (p : RetryPolicy) (attempt : UInt32) : UInt64 :=
  let raw := p.retryDelayMs.toFloat * power p.backoffMultiplier (exponentAfter attempt)
  let cap := p.maxRetryDelayMs.toFloat
  -- A product that is NaN fails both tests, so that the cap counts for it, too.
  (if raw.isFinite && raw ≤ cap then raw else cap).toUInt64

/-- Whether another attempt may follow an attempt. -/
def allowsRetry (p : RetryPolicy) (attempt : UInt32) : Bool := attempt ≤ p.maxRetries

end RetryPolicy

/-- Which errors are worth another attempt. -/
inductive RetryClassification where
  | all
  | transientOnly
  deriving DecidableEq, Inhabited

namespace RetryClassification

/-- The name of a classification. -/
def name : RetryClassification → String
  | .all => "all"
  | .transientOnly => "transient_only"

/-- The classifications by name. -/
def names : List (String × RetryClassification) :=
  [("all", .all), ("transient_only", .transientOnly)]

/-- Every classification is found by its name. -/
theorem lookup_name (c : RetryClassification) : names.lookup c.name = some c := by
  cases c <;> decide

instance : ToJson RetryClassification := ⟨fun c => .string c.name⟩
instance : FromJson RetryClassification := ⟨Json.nameIn? names⟩

/-- Whether an error is worth another attempt. -/
def shouldRetry : RetryClassification → DispatchError → Bool
  | .all, _ => true
  | .transientOnly, e => e.kind = .transient

end RetryClassification

end Klaxon
