import Klaxon.Message.Template
import Klaxon.Vocabulary

/-!
# Dispatch policy

The policy says how often the lanes are drained, at which priority alerts of a severity go out, how
many messages are taken from a lane at a time, and what happens to alerts beyond the budget of a
recipient.
-/

namespace Klaxon

/-- What happens to an alert message beyond the budget of its recipient. -/
inductive Overflow where
  /-- It is not made. -/
  | drop
  /-- It waits until the budget allows it. -/
  | defer
  deriving DecidableEq, Inhabited

namespace Overflow

/-- The name of a choice. -/
def name : Overflow → String
  | .drop => "drop"
  | .defer => "defer"

/-- The choices by name. -/
def names : List (String × Overflow) := [("drop", .drop), ("defer", .defer)]

/-- Every choice is found by its name. -/
theorem lookup_name (o : Overflow) : names.lookup o.name = some o := by cases o <;> decide

instance : ToJson Overflow := ⟨fun o => .string o.name⟩
instance : FromJson Overflow := ⟨Json.nameIn? names⟩

end Overflow

/-- The settings of the dispatch. -/
structure Policy where
  tickIntervalMs : UInt64
  /-- Severities that go out at another priority than usual. -/
  severityPriority : List (Severity × Priority)
  /-- Lanes with another batch size than usual. -/
  batchSizes : List (Priority × UInt64)
  recipientOverflow : Overflow
  /-- The id of the template for alerts. -/
  alertTemplateId : String
  /-- The failures in a row after which a channel is unhealthy; zero for never. -/
  unhealthyAfter : UInt32

namespace Policy

/-- The policy where none is given. -/
def standard : Policy := ⟨2000, [], [], .drop, TemplateStore.defaultAlertId, 5⟩

/-- The fields of a policy. -/
def fields : List Field :=
  [field "tick_interval_ms", field "severity_priority", field "batch_sizes",
    field "recipient_overflow", field "alert_template_id", field "unhealthy_after_failures"]

instance : ToJson Policy where
  toJson p := Json.ofMembers
    [("tick_interval_ms", toJson p.tickIntervalMs),
      ("severity_priority", Json.ofMap Severity.name toJson p.severityPriority),
      ("batch_sizes", Json.ofMap Priority.name toJson p.batchSizes),
      ("recipient_overflow", toJson p.recipientOverflow),
      ("alert_template_id", toJson p.alertTemplateId),
      ("unhealthy_after_failures", toJson p.unhealthyAfter)]

instance : FromJson Policy where
  fromJson? j := do
    let r ← Record.read fields j
    some {
      tickIntervalMs := ← r.withDefault "tick_interval_ms" standard.tickIntervalMs
      severityPriority := ← r.withDefaultBy "severity_priority" []
        (Json.mapOf? Severity.ofName? fromJson?)
      batchSizes := ← r.withDefaultBy "batch_sizes" [] (Json.mapOf? Priority.ofName? fromJson?)
      recipientOverflow := ← r.withDefault "recipient_overflow" Overflow.drop
      alertTemplateId := ← r.withDefault "alert_template_id" standard.alertTemplateId
      unhealthyAfter := ← r.withDefault "unhealthy_after_failures" standard.unhealthyAfter }

/-- The usual priority of alerts of a severity. -/
def usualPriority : Severity → Priority
  | .critical => .immediate
  | .high => .high
  | .medium => .normal
  | .low => .low
  | .info => .batch

/-- The priority of alerts of a severity. -/
def priorityFor (p : Policy) (severity : Severity) : Priority :=
  (p.severityPriority.lookup severity).getD (usualPriority severity)

/-- The usual batch size of a lane. -/
def usualBatchSize : Priority → Nat
  | .immediate => 1
  | .high => 3
  | .normal => 5
  | .low => 10
  | .batch => 20

/-- The number of messages taken from a lane at a time, at least one. -/
def batchSize (p : Policy) (priority : Priority) : Nat :=
  max 1 (((p.batchSizes.lookup priority).map UInt64.toNat).getD (usualBatchSize priority))

/-- A batch is never empty. -/
theorem batchSize_pos (p : Policy) (priority : Priority) : 0 < p.batchSize priority := by
  unfold batchSize
  omega

end Policy

end Klaxon
