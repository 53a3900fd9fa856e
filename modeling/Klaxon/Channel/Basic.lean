import Klaxon.Channel.RateLimit
import Klaxon.Channel.Retry
import Klaxon.Text.Blank
import Klaxon.Text.Quoted
import Klaxon.Vocabulary

/-!
# Channels

A channel is one configured way out for messages, with its health, its counters and its limiter.
Transient failures in a row make it unhealthy; a delivery or `Channel.restore` makes it healthy
again. Only a channel that is enabled and healthy is chosen for alerts.
-/

namespace Klaxon

/-- The definition of a channel. -/
structure ChannelSpec where
  id : String
  name : String
  channelType : ChannelType
  enabled : Bool
  /-- The settings of its transport. -/
  config : Json
  retryPolicy : RetryPolicy
  rateLimit : RateLimit
  /-- The priorities it takes; all of them if the list is empty. -/
  supportedPriorities : List Priority
  retryClassification : RetryClassification

namespace ChannelSpec

/-- The fields of a channel definition. -/
def fields : List Field :=
  [field "id", field "name", field "type", field "enabled", field "config", field "retry_policy",
    field "rate_limit", field "supported_priorities", field "retry_classification"]

instance : ToJson ChannelSpec where
  toJson s := Json.ofMembers
    [("id", toJson s.id), ("name", toJson s.name), ("type", toJson s.channelType),
      ("enabled", toJson s.enabled), ("config", s.config),
      ("retry_policy", toJson s.retryPolicy), ("rate_limit", toJson s.rateLimit),
      ("supported_priorities", toJson s.supportedPriorities),
      ("retry_classification", toJson s.retryClassification)]

instance : FromJson ChannelSpec where
  fromJson? j := do
    let r ← Record.read fields j
    some {
      id := ← r.required "id"
      name := ← r.withDefault "name" ""
      channelType := ← r.required "type"
      enabled := ← r.withDefault "enabled" true
      config := ← r.withDefault "config" Json.null
      retryPolicy := ← r.withDefault "retry_policy" RetryPolicy.standard
      rateLimit := ← r.withDefault "rate_limit" RateLimit.standard
      supportedPriorities := ← r.withDefault "supported_priorities" []
      retryClassification := ← r.withDefault "retry_classification" RetryClassification.all }

end ChannelSpec

/-- Delivered over sent, zero where nothing was sent. -/
def deliveryRate (delivered sent : Nat) : Float :=
  if sent = 0 then 0.0 else Float.ofNat delivered / Float.ofNat sent

/-- Counts of messages, as words of 64 bits: first attempts, deliveries and final failures. -/
structure Tally where
  sent : UInt64
  delivered : UInt64
  failed : UInt64
  /-- The latencies of all deliveries. -/
  latencyMs : UInt64
  deriving DecidableEq, Inhabited

namespace Tally

/-- No messages. -/
def zero : Tally := ⟨0, 0, 0, 0⟩

/-- Counts a first attempt. -/
def addSent (t : Tally) : Tally := { t with sent := t.sent + 1 }

/-- Counts a delivery. -/
def addDelivered (t : Tally) (latencyMs : UInt64) : Tally :=
  { t with delivered := t.delivered + 1, latencyMs := t.latencyMs + latencyMs }

/-- Counts a final failure. -/
def addFailed (t : Tally) : Tally := { t with failed := t.failed + 1 }

/-- The mean latency of deliveries. -/
def averageLatencyMs (t : Tally) : Float :=
  if t.delivered = 0 then 0.0 else t.latencyMs.toFloat / t.delivered.toFloat

instance : ToJson Tally where
  toJson t := Json.ofMembers
    [("sent", toJson t.sent), ("delivered", toJson t.delivered), ("failed", toJson t.failed),
      ("delivery_rate", toJson (deliveryRate t.delivered.toNat t.sent.toNat)),
      ("average_latency_ms", toJson t.averageLatencyMs)]

end Tally

/-- A channel and how it is doing. -/
structure Channel where
  spec : ChannelSpec
  healthy : Bool
  /-- Failures since the last success, as a word of 32 bits. -/
  consecutiveFailures : UInt32
  counters : Tally
  /-- Requests that the limiter refused. -/
  rateLimited : UInt64
  limiter : Limiter

namespace Channel

/-- The id of a channel. -/
def id (c : Channel) : String := c.spec.id

/-- The type of a channel. -/
def channelType (c : Channel) : ChannelType := c.spec.channelType

/-- A new channel over a transport that handles a channel type. -/
def create (spec : ChannelSpec) (handles : ChannelType) : Except DispatchError Channel :=
  if Text.isBlankText spec.id then .error (.invalidConfig "channel id is empty")
  else if handles ≠ spec.channelType then
    .error (.invalidConfig ("channel '" ++ spec.id ++ "' is declared as " ++
      spec.channelType.name ++ " but its deliverer handles " ++ handles.name))
  else
    match spec.retryPolicy.validate with
    | .error fault =>
      .error (.invalidConfig ("channel '" ++ spec.id ++ "': " ++ fault.message))
    | .ok () => .ok ⟨spec, true, 0, .zero, 0, .ofLimit spec.rateLimit⟩

/-- Whether the channel takes messages of a priority. -/
def supports (c : Channel) (priority : Priority) : Bool :=
  c.spec.supportedPriorities.isEmpty || c.spec.supportedPriorities.contains priority

/-- Whether the channel can be chosen for an alert at a priority. -/
def isEligible (c : Channel) (priority : Priority) : Bool :=
  c.spec.enabled && c.healthy && c.supports priority

/-- Whether an error is worth another attempt on this channel. -/
def shouldRetry (c : Channel) (e : DispatchError) : Bool :=
  c.spec.retryClassification.shouldRetry e

/-- Asks the limiter for a request. -/
def tryAcquire (c : Channel) (now : Instant) : Channel × Bool :=
  match c.limiter.tryAcquire now with
  | (limiter, true) => ({ c with limiter }, true)
  | (limiter, false) => ({ c with limiter, rateLimited := c.rateLimited + 1 }, false)

/-- Counts the first attempt of a message. -/
def recordSent (c : Channel) : Channel := { c with counters := c.counters.addSent }

/-- Counts a delivery; the channel is healthy again. -/
def recordDelivered (c : Channel) (latencyMs : UInt64) : Channel :=
  { c with
    counters := c.counters.addDelivered latencyMs
    consecutiveFailures := 0
    -- One delivery is enough, however many attempts failed before it.
    healthy := true }

/-- Counts a failure that speaks against the channel, and tells whether it made the channel
unhealthy. A threshold of zero never does. -/
def recordAttemptFailure (c : Channel) (unhealthyAfter : UInt32) : Channel × Bool :=
  let failures := c.consecutiveFailures + 1
  -- An unhealthy channel stays so and is not reported again.
  if 0 < unhealthyAfter ∧ unhealthyAfter ≤ failures then
    ({ c with consecutiveFailures := failures, healthy := false }, c.healthy)
  else ({ c with consecutiveFailures := failures }, false)

/-- Counts a message that failed for good. -/
def recordFailed (c : Channel) : Channel := { c with counters := c.counters.addFailed }

/-- Takes the channel out of the choice for alerts. -/
def markUnhealthy (c : Channel) : Channel := { c with healthy := false }

/-- Makes the channel healthy and forgets its failures. -/
def restore (c : Channel) : Channel := { c with consecutiveFailures := 0, healthy := true }

/-- The state of a channel as a document. -/
def snapshot (c : Channel) : Json := Json.ofMembers
  [("id", toJson c.id), ("name", toJson c.spec.name), ("channel_type", toJson c.channelType),
    ("enabled", toJson c.spec.enabled), ("healthy", toJson c.healthy),
    ("consecutive_failures", toJson c.consecutiveFailures),
    ("rate_limited", toJson c.rateLimited), ("counters", toJson c.counters)]

/-- One line on a channel. -/
def description (c : Channel) : String :=
  let flag (b : Bool) : String := if b then "true" else "false"
  "NotificationChannel \x7b id: " ++ Text.quoted c.id ++ ", channel_type: " ++
    c.channelType.label ++ ", enabled: " ++ flag c.spec.enabled ++ ", healthy: " ++
    flag c.healthy ++ " \x7d"

end Channel

end Klaxon
