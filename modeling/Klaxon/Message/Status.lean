import Klaxon.Json.Record

/-!
# The life of a message

A message waits, is sent, and ends delivered, failed or cancelled. `Status.allows` gives the changes
between these states: a message waits again after an attempt that is retried, and only a waiting
message can be cancelled. `not_allows_of_isTerminal` says that the ends are final.
-/

namespace Klaxon

/-- Where a message is in its life. -/
inductive Status where
  | queued
  | sending
  | delivered
  | failed
  | cancelled
  deriving DecidableEq, Inhabited

namespace Status

/-- The name of a status. -/
def name : Status → String
  | .queued => "queued"
  | .sending => "sending"
  | .delivered => "delivered"
  | .failed => "failed"
  | .cancelled => "cancelled"

/-- The name of a status in an error. -/
def label : Status → String
  | .queued => "Queued"
  | .sending => "Sending"
  | .delivered => "Delivered"
  | .failed => "Failed"
  | .cancelled => "Cancelled"

/-- The statuses by name. -/
def names : List (String × Status) :=
  [("queued", .queued), ("sending", .sending), ("delivered", .delivered), ("failed", .failed),
    ("cancelled", .cancelled)]

/-- Every status is found by its name. -/
theorem lookup_name (s : Status) : names.lookup s.name = some s := by cases s <;> decide

instance : ToJson Status := ⟨fun s => .string s.name⟩
instance : FromJson Status := ⟨Json.nameIn? names⟩

/-- Whether nothing happens to the message any more. -/
def isTerminal : Status → Bool
  | .delivered | .failed | .cancelled => true
  | .queued | .sending => false

/-- The changes of status there are. -/
def allows : Status → Status → Bool
  | .queued, .sending | .queued, .cancelled => true
  | .sending, .delivered | .sending, .failed | .sending, .queued => true
  | _, _ => false

/-- No change leads out of a terminal status. -/
theorem not_allows_of_isTerminal {a b : Status} (h : a.isTerminal = true) : a.allows b = false := by
  cases a <;> first | rfl | exact absurd h (by decide)

end Status

/-- How an attempt ended. -/
inductive Outcome where
  | success
  /-- Failed for good. -/
  | failed
  /-- Failed, and another attempt is scheduled. -/
  | retry
  deriving DecidableEq, Inhabited

namespace Outcome

/-- The name of an outcome. -/
def name : Outcome → String
  | .success => "success"
  | .failed => "failed"
  | .retry => "retry"

/-- The outcomes by name. -/
def names : List (String × Outcome) :=
  [("success", .success), ("failed", .failed), ("retry", .retry)]

/-- Every outcome is found by its name. -/
theorem lookup_name (o : Outcome) : names.lookup o.name = some o := by cases o <;> decide

instance : ToJson Outcome := ⟨fun o => .string o.name⟩
instance : FromJson Outcome := ⟨Json.nameIn? names⟩

end Outcome

end Klaxon
