import Klaxon.Channel.Registry
import Klaxon.Dispatch.Lanes

/-!
# Dispatch statistics

The statistics count messages that reached their first attempt, that were delivered and that failed
for good, in total and by priority. They also keep the times of these milestones for a day.
-/

namespace Klaxon

/-- What a message has reached. -/
inductive Milestone where
  | sent
  | delivered
  | failed
  deriving DecidableEq

/-- The counts of an engine. -/
structure Statistics where
  totals : Tally
  byPriority : PerPriority Tally
  suppressed : UInt64
  cancelled : UInt64
  /-- The milestones of the last day, in the order in which they were recorded. -/
  recent : List (Instant × Milestone)

namespace Statistics

/-- Nothing counted yet. -/
def empty : Statistics := ⟨.zero, .replicate .zero, 0, 0, []⟩

/-- Drops the oldest milestones up to a day ago. -/
def prune (s : Statistics) (now : Instant) : Statistics :=
  { s with recent := s.recent.dropWhile fun m => decide (m.1 ≤ now.sub Time.day) }

/-- Records a milestone of a message of a priority. -/
def record (s : Statistics) (milestone : Milestone) (priority : Priority) (count : Tally → Tally)
    (now : Instant) : Statistics :=
  prune
    { s with
      totals := count s.totals
      byPriority := s.byPriority.modify priority count
      recent := s.recent ++ [(now, milestone)] }
    now

/-- Records a first attempt. -/
def recordSent (s : Statistics) (priority : Priority) (now : Instant) : Statistics :=
  s.record .sent priority Tally.addSent now

/-- Records a delivery. -/
def recordDelivered (s : Statistics) (priority : Priority) (latencyMs : UInt64) (now : Instant) :
    Statistics :=
  s.record .delivered priority (fun t => t.addDelivered latencyMs) now

/-- Records a final failure. -/
def recordFailed (s : Statistics) (priority : Priority) (now : Instant) : Statistics :=
  s.record .failed priority Tally.addFailed now

/-- Counts a message that was not made. -/
def recordSuppressed (s : Statistics) : Statistics := { s with suppressed := s.suppressed + 1 }

/-- Counts a message that was cancelled. -/
def recordCancelled (s : Statistics) : Statistics := { s with cancelled := s.cancelled + 1 }

/-- The number of recent milestones of a kind. -/
def recentCount (s : Statistics) (milestone : Milestone) : Nat :=
  s.recent.countP fun m => m.2 == milestone

/-- The statistics as a document, beside those of the channels and the depths of the lanes. -/
def snapshot (s : Statistics) (registry : Registry) (lanes : Lanes) : Json :=
  let sent := s.recentCount .sent
  let delivered := s.recentCount .delivered
  Json.ofMembers
    [("total_sent", toJson s.totals.sent), ("total_delivered", toJson s.totals.delivered),
      ("total_failed", toJson s.totals.failed), ("total_suppressed", toJson s.suppressed),
      ("total_cancelled", toJson s.cancelled),
      ("delivery_rate",
        toJson (deliveryRate s.totals.delivered.toNat s.totals.sent.toNat)),
      ("by_channel", Json.ofMembers (registry.map fun c => (c.id, toJson c.counters))),
      ("by_priority", s.byPriority.toJsonBy toJson),
      ("last_24_hours", Json.ofMembers
        [("sent", toJson sent), ("delivered", toJson delivered),
          ("failed", toJson (s.recentCount .failed)),
          ("delivery_rate", toJson (deliveryRate delivered sent))]),
      ("queue_depth", lanes.depths)]

end Statistics

end Klaxon
