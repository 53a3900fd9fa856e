import Klaxon.Message.Template
import Klaxon.Time.Text

/-!
# Messages

A message is one notification for one recipient over one channel. It keeps the log of its attempts,
and its subject and body once they are rendered. The functions that move it on (`beginSending`,
`recordSuccess`, `recordRetry`, `recordFailure`, `cancel`) refuse the changes of status that
`Status.allows` does not give.
-/

namespace Klaxon

/-- One attempt to deliver a message. -/
structure Attempt where
  /-- Counted from 1. -/
  number : UInt32
  attemptedAt : Instant
  outcome : Outcome
  responseCode : Option UInt16
  responseMessage : Option String
  error : Option String
  latencyMs : UInt64
  /-- The delay until the next attempt, after one that is retried. -/
  retryDelayMs : Option UInt64

/-- Whom a message goes to, as it was when the message was made. -/
structure Addressee where
  id : String
  name : String
  address : String
  deriving DecidableEq

/-- A notification for one recipient over one channel. -/
structure Message where
  id : String
  alertId : Option String
  channelId : String
  channelType : ChannelType
  recipient : Addressee
  templateId : String
  subject : Option String
  body : Option String
  format : TextFormat
  priority : Priority
  scheduledAt : Instant
  status : Status
  /-- The attempts so far, the first one first. -/
  attempts : List Attempt
  context : Json
  createdAt : Instant
  deliveredAt : Option Instant

namespace Attempt

/-- The fields of an attempt. -/
def fields : List Field :=
  [field "attempt_number", field "attempted_at", field "outcome", field "response_code",
    field "response_message", field "error", field "latency_ms", field "retry_delay_ms"]

instance : ToJson Attempt where
  toJson a := Json.ofMembers <|
    [("attempt_number", toJson a.number), ("attempted_at", toJson a.attemptedAt),
      ("outcome", toJson a.outcome), ("latency_ms", toJson a.latencyMs)] ++
      Json.memberIfSome "response_code" a.responseCode ++
      Json.memberIfSome "response_message" a.responseMessage ++
      Json.memberIfSome "error" a.error ++ Json.memberIfSome "retry_delay_ms" a.retryDelayMs

instance : FromJson Attempt where
  fromJson? j := do
    let r ← Record.read fields j
    some {
      number := ← r.required "attempt_number"
      attemptedAt := ← r.required "attempted_at"
      outcome := ← r.required "outcome"
      responseCode := ← r.nullableOr "response_code"
      responseMessage := ← r.nullableOr "response_message"
      error := ← r.nullableOr "error"
      latencyMs := ← r.required "latency_ms"
      retryDelayMs := ← r.nullableOr "retry_delay_ms" }

end Attempt

namespace Addressee

instance : ToJson Addressee where
  toJson a := Json.ofMembers
    [("id", toJson a.id), ("name", toJson a.name), ("address", toJson a.address)]

instance : FromJson Addressee where
  fromJson? j := do
    let r ← Record.read [field "id", field "name", field "address"] j
    some ⟨← r.required "id", ← r.required "name", ← r.required "address"⟩

end Addressee

namespace Message

/-- The fields of a message. -/
def fields : List Field :=
  [field "id", field "alert_id", field "channel_id", field "channel_type", field "recipient",
    field "template_id", field "subject", field "body", field "format", field "priority",
    field "scheduled_at", field "status", field "attempts", field "context", field "created_at",
    field "delivered_at"]

/-- The members of a message as a document, its context apart. -/
def briefMembers (m : Message) : List (String × Json) :=
  [("id", toJson m.id), ("channel_id", toJson m.channelId),
    ("channel_type", toJson m.channelType), ("recipient", toJson m.recipient),
    ("template_id", toJson m.templateId), ("subject", toJson m.subject), ("body", toJson m.body),
    ("format", toJson m.format), ("priority", toJson m.priority),
    ("scheduled_at", toJson m.scheduledAt), ("status", toJson m.status),
    ("attempts", toJson m.attempts), ("created_at", toJson m.createdAt)] ++
    -- Of the fields without a value only these two are left out.
    Json.memberIfSome "alert_id" m.alertId ++ Json.memberIfSome "delivered_at" m.deliveredAt

/-- A message without its context. -/
def brief (m : Message) : Json := Json.ofMembers m.briefMembers

instance : ToJson Message where
  toJson m := Json.ofMembers (("context", m.context) :: m.briefMembers)

instance : FromJson Message where
  fromJson? j := do
    let r ← Record.read fields j
    some {
      id := ← r.required "id"
      alertId := ← r.nullableOr "alert_id"
      channelId := ← r.required "channel_id"
      channelType := ← r.required "channel_type"
      recipient := ← r.required "recipient"
      templateId := ← r.required "template_id"
      subject := ← r.nullable "subject"
      body := ← r.nullable "body"
      format := ← r.withDefault "format" TextFormat.text
      priority := ← r.required "priority"
      scheduledAt := ← r.required "scheduled_at"
      status := ← r.required "status"
      attempts := ← r.required "attempts"
      context := ← r.required "context"
      createdAt := ← r.required "created_at"
      deliveredAt := ← r.nullableOr "delivered_at" }

/-- The number of the next attempt. -/
def nextAttemptNumber (m : Message) : UInt32 := UInt32.ofNat m.attempts.length + 1

/-- The last attempt. -/
def lastAttempt? (m : Message) : Option Attempt := m.attempts.getLast?

/-- Whether subject and body are rendered. -/
def isRendered (m : Message) : Bool := m.subject.isSome && m.body.isSome

/-- The last time that anything happened to the message. -/
def updatedAt (m : Message) : Instant :=
  -- Neither a cancellation nor the end of an attempt that failed leaves a time behind.
  (m.deliveredAt <|> m.lastAttempt?.map Attempt.attemptedAt).getD m.createdAt

/-- The message with another status, where that change is allowed. -/
def moveTo (m : Message) (target : Status) : Except DispatchError Message :=
  if m.status.allows target then .ok { m with status := target }
  else .error (.invalidTransition m.id m.status target)

/-- Claims a waiting message for an attempt. -/
def beginSending (m : Message) : Except DispatchError Message := m.moveTo .sending

/-- Ends an attempt that succeeded. -/
def recordSuccess (m : Message) (attempt : Attempt) (now : Instant) :
    Except DispatchError Message :=
  (m.moveTo .delivered).map fun m =>
    { m with attempts := m.attempts ++ [attempt], deliveredAt := some now }

/-- Ends an attempt that is retried at an instant. -/
def recordRetry (m : Message) (attempt : Attempt) (nextAt : Instant) :
    Except DispatchError Message :=
  (m.moveTo .queued).map fun m =>
    { m with attempts := m.attempts ++ [attempt], scheduledAt := nextAt }

/-- Ends an attempt that failed for good. -/
def recordFailure (m : Message) (attempt : Attempt) : Except DispatchError Message :=
  (m.moveTo .failed).map fun m => { m with attempts := m.attempts ++ [attempt] }

/-- Cancels a waiting message. -/
def cancel (m : Message) : Except DispatchError Message := m.moveTo .cancelled

/-- The message with its rendered content. -/
def withContent (m : Message) (content : RenderedContent) : Message :=
  { m with subject := some content.subject, body := some content.body, format := content.format }

end Message

end Klaxon
