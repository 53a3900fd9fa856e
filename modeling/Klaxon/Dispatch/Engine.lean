import Klaxon.Dispatch.Budget
import Klaxon.Dispatch.Delivery
import Klaxon.Dispatch.Statistics
import Klaxon.Event
import Klaxon.IdSupply
import Klaxon.Text.Truncation

/-!
# The dispatch engine

The engine holds every message, and for each message that waits one handle: its id in the lane of
its priority, a timer that will put it there, or a delivery under way. This module holds the state
and what is asked of the engine from outside: `fanOut` makes the messages of an alert, `sendCustom`
and `sendWebhook` make one message, `cancel` and `prune` end and forget messages. A request that
fails gives its error beside the engine it was asked of.

Time stands still within each of these functions: they are given the current instant. New messages
get their ids from the `IdSupply` of the engine, in the order in which they are made.
-/

namespace Klaxon

/-- An id that goes back to its lane at a time. -/
structure Timer where
  messageId : String
  priority : Priority
  due : Instant
  deriving DecidableEq

/-- A transport at work on a message. -/
structure Call where
  channelId : String
  attemptedAt : Instant
  /-- The content, if it was rendered for this attempt. -/
  rendered : Option RenderedContent
  delivery : Delivery

/-- How far the work on an id is that was taken from its lane. -/
inductive Stage where
  /-- Its message is still to be claimed. -/
  | pulled
  /-- Its message is claimed, and this is the message as it was read then. -/
  | claimed (message : Message) (attemptedAt : Instant)
  /-- The transport is at work. -/
  | calling (call : Call)

/-- An id that was taken from its lane. -/
structure Flight where
  messageId : String
  stage : Stage

/-- The state of the dispatch. -/
structure Engine where
  templates : TemplateStore
  directory : Directory
  policy : Policy
  idSupply : IdSupply
  registry : Registry
  /-- All messages, in the order of their creation. -/
  messages : List Message
  lanes : Lanes
  /-- The running timers, in the order in which they were made. -/
  timers : List Timer
  /-- The ids taken from their lanes whose attempts have not ended. -/
  flights : List Flight
  slots : SlotBook
  statistics : Statistics
  /-- The number of messages made so far. -/
  made : Nat

namespace Engine

/-- An engine without messages. -/
def create (registry : Registry) (templates : TemplateStore) (directory : Directory)
    (policy : Policy) (idSupply : IdSupply := .numbered) : Engine :=
  { templates, directory, policy, idSupply, registry, messages := [], lanes := .empty,
    timers := [], flights := [], slots := [], statistics := .empty, made := 0 }

/-- A message by id. -/
def message? (e : Engine) (id : String) : Option Message := e.messages.find? fun m => m.id == id

/-- Changes the message of an id. -/
def putMessage (e : Engine) (message : Message) : Engine :=
  { e with messages := e.messages.map fun m => if m.id == message.id then message else m }

/-- Changes the channel of an id. -/
def modifyChannel (e : Engine) (id : String) (change : Channel → Channel) : Engine :=
  { e with registry := e.registry.modify id change }

/-- Sets the recipients. -/
def setDirectory (e : Engine) (directory : Directory) : Engine := { e with directory }

/-! ## New messages -/

/-- The id of the next message. -/
def nextId (e : Engine) : String := e.idSupply.id .message (e.made + 1)

/-- What is decided about a new message before it is made. -/
structure Draft where
  alertId : Option String
  channelId : String
  channelType : ChannelType
  recipient : Addressee
  templateId : String
  priority : Priority
  scheduledAt : Instant
  context : Json

/-- The message of a draft. -/
def Draft.toMessage (d : Draft) (id : String) (now : Instant) : Message :=
  { id
    alertId := d.alertId
    channelId := d.channelId
    channelType := d.channelType
    recipient := d.recipient
    templateId := d.templateId
    subject := none
    body := none
    format := .text
    priority := d.priority
    scheduledAt := d.scheduledAt
    status := .queued
    attempts := []
    context := d.context
    createdAt := now
    deliveredAt := none }

/-- Stores a new message and queues it: in its lane, or behind a timer if it is to wait. -/
def accept (e : Engine) (d : Draft) (now : Instant) : Engine × Message :=
  let message := d.toMessage e.nextId now
  let e := { e with messages := e.messages ++ [message], made := e.made + 1 }
  -- Only a deferred message has its slot in the future.
  if now < d.scheduledAt then
    ({ e with timers := e.timers ++ [⟨message.id, d.priority, d.scheduledAt⟩] }, message)
  else ({ e with lanes := e.lanes.push d.priority message.id }, message)

/-- The template for alerts serves a channel type, or this is the error. -/
def checkTemplate (e : Engine) (templateId : String) (channelType : ChannelType) :
    Except DispatchError Unit :=
  match e.templates.get? templateId with
  | none => .error (.templateNotFound templateId)
  | some t =>
    if t.supports channelType then .ok () else .error (.templateUnsupported templateId channelType)

/-- An enabled channel by id. -/
def enabledChannel (e : Engine) (id : String) : Except DispatchError Channel :=
  match e.registry.get? id with
  | none => .error (.channelNotFound id)
  | some c => if c.spec.enabled then .ok c else .error (.channelDisabled id)

/-! ## Alerts -/

/-- The channel and address for an alert message, if there are any. -/
def routeFor? (e : Engine) (recipient : Recipient) (priority : Priority)
    (channelType : ChannelType) : Option (Channel × String) :=
  -- None of this is an error: without template, channel or address the alert does not go out this
  -- way.
  match e.checkTemplate e.policy.alertTemplateId channelType with
  | .error _ => none
  | .ok () => do
    let channel ← e.registry.select channelType priority
    let address ← recipient.address? channelType
    some (channel, address)

/-- Makes the message of an alert for a recipient over a channel type, if there is a route and the
budget of the recipient allows it. -/
def notifyOver (e : Engine) (alert : Alert) (recipient : Recipient) (priority : Priority)
    (now : Instant) (channelType : ChannelType) : Engine × List Message :=
  match e.routeFor? recipient priority channelType with
  | none => (e, [])
  | some (channel, address) =>
    -- The budget is asked last, so that only messages that can go out take slots.
    match e.slots.reserve recipient e.policy.recipientOverflow now with
    | (slots, none) => ({ e with slots, statistics := e.statistics.recordSuppressed }, [])
    | (slots, some scheduledAt) =>
      let draft : Draft :=
        { alertId := some alert.id
          channelId := channel.id
          channelType
          recipient := ⟨recipient.id, recipient.name, address⟩
          templateId := e.policy.alertTemplateId
          priority
          scheduledAt
          context := Json.ofMembers
            [("alert", alert.templateContext), ("recipient", recipient.templateContext)] }
      let (e, message) := { e with slots }.accept draft now
      (e, [message])

/-- Makes messages one after the other. -/
def collect {α : Type} (make : Engine → α → Engine × List Message) :
    Engine → List α → Engine × List Message
  | e, [] => (e, [])
  | e, a :: rest =>
    let (e, messages) := make e a
    let (e, more) := collect make e rest
    (e, messages ++ more)

/-- Whether the quiet hours of a recipient hold back an alert. -/
def isHeldBack (alert : Alert) (recipient : Recipient) (now : Instant) : Bool :=
  alert.severity != .critical && recipient.inQuietHours now

/-- Makes the messages of an alert for a recipient. -/
def notifyRecipient (alert : Alert) (priority : Priority) (now : Instant) (e : Engine)
    (recipientId : String) : Engine × List Message :=
  match e.directory.get? recipientId with
  | none => (e, [])
  | some recipient =>
    if isHeldBack alert recipient now then
      ({ e with statistics := e.statistics.recordSuppressed }, [])
    else
      collect (fun e t => e.notifyOver alert recipient priority now t) e
        (recipient.channelsFor alert.severity)

/-- Makes the messages of an alert for recipients, at a priority. -/
def fanOut (e : Engine) (alert : Alert) (recipientIds : List String) (priority : Priority)
    (now : Instant) : Engine × List Message :=
  collect (notifyRecipient alert priority now) e recipientIds

/-! ## Single messages -/

/-- The context of a custom message: that of the caller, with the recipient beside it. -/
def customContext (context : Json) (recipient : Recipient) : Json :=
  let members := match context with
    | .object members => members
    | .null => []
    | other => [("data", other)]
  -- A recipient that the caller put there stays.
  match Json.Members.find? "recipient" members with
  | some _ => .object members
  | none => .object (Json.Members.put "recipient" recipient.templateContext members)

/-- What a custom message is to be. -/
def customDraft (e : Engine) (recipientId channelId templateId : String) (context : Json)
    (priority : Priority) (now : Instant) : Except DispatchError Draft := do
  -- Of several faults the first one in this order is reported.
  let channel ← e.enabledChannel channelId
  e.checkTemplate templateId channel.channelType
  let recipient ← match e.directory.get? recipientId with
    | some r => .ok r
    | none => .error (.recipientNotFound recipientId)
  let address ← match recipient.address? channel.channelType with
    | some a => .ok a
    | none => .error (.invalidConfig ("recipient '" ++ recipient.id ++ "' has no " ++
        channel.channelType.name ++ " contact"))
  .ok {
    alertId := none
    channelId := channel.id
    channelType := channel.channelType
    recipient := ⟨recipient.id, recipient.name, address⟩
    templateId
    priority
    scheduledAt := now
    context := customContext context recipient }

/-- The recipient id of messages to webhooks. -/
def webhookRecipientId : String := "webhook"

/-- What the message of an alert to a webhook is to be. -/
def webhookDraft (e : Engine) (alert : Alert) (channelId : String) (url : Option String)
    (now : Instant) : Except DispatchError Draft := do
  let channel ← e.enabledChannel channelId
  if channel.channelType ≠ .webhook then
    throw (.invalidConfig ("channel '" ++ channelId ++ "' is a " ++ channel.channelType.name ++
      " channel, not a webhook"))
  e.checkTemplate e.policy.alertTemplateId .webhook
  .ok {
    alertId := some alert.id
    channelId := channel.id
    channelType := .webhook
    -- An empty address stands for the one in the settings of the channel.
    recipient := ⟨webhookRecipientId, channel.spec.name, url.getD ""⟩
    templateId := e.policy.alertTemplateId
    priority := e.policy.priorityFor alert.severity
    scheduledAt := now
    context := Json.ofMembers [("alert", alert.templateContext)] }

/-- Accepts a draft, if there is one. -/
def submit (e : Engine) (draft : Except DispatchError Draft) (now : Instant) :
    Engine × Except DispatchError Message :=
  match draft with
  | .error error => (e, .error error)
  | .ok d =>
    let (e, message) := e.accept d now
    (e, .ok message)

/-- Makes one message for a recipient over a channel. Budgets and quiet hours do not apply. -/
def sendCustom (e : Engine) (recipientId channelId templateId : String) (context : Json)
    (priority : Priority) (now : Instant) : Engine × Except DispatchError Message :=
  e.submit (e.customDraft recipientId channelId templateId context priority now) now

/-- Makes the message of an alert to a webhook, at the address given or that of the channel. -/
def sendWebhook (e : Engine) (alert : Alert) (channelId : String) (url : Option String)
    (now : Instant) : Engine × Except DispatchError Message :=
  e.submit (e.webhookDraft alert channelId url now) now

/-! ## The end of messages -/

/-- Cancels a message that waits. -/
def cancel (e : Engine) (id : String) : Engine × Except DispatchError Message :=
  match e.message? id with
  | none => (e, .error (.messageNotFound id))
  | some m =>
    -- The id stays where it is, in its lane or behind its timer, and is passed over later.
    match m.cancel with
    | .error error => (e, .error error)
    | .ok m => ({ e.putMessage m with statistics := e.statistics.recordCancelled }, .ok m)

/-- Whether a message is over and was last touched before a time. -/
def isExpired (m : Message) (before : Instant) : Bool :=
  m.status.isTerminal && decide (m.updatedAt < before)

/-- Forgets the messages that were over before a time; gives their number. -/
def prune (e : Engine) (before : Instant) : Engine × Nat :=
  let kept := e.messages.filter fun m => !isExpired m before
  ({ e with messages := kept }, e.messages.length - kept.length)

/-- The statistics now, and the engine that has dropped the old milestones. -/
def report (e : Engine) (now : Instant) : Engine × Json :=
  let statistics := e.statistics.prune now
  ({ e with statistics }, statistics.snapshot e.registry e.lanes)

end Engine

end Klaxon
