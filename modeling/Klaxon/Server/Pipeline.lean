import Klaxon.Rule.Detection
import Klaxon.Server.Timeline

/-!
# From events to messages

`Server.handleEvent` runs an event through the rules. Every rule that triggers raises one alert, and
its actions are then taken in their order; one that fails is noted and the others go on. Messages of
the highest priority are handed over before the server turns to anything else, provided that it is
running; all others wait in their lanes for the ticker or for `Server.tick`.
-/

namespace Klaxon

namespace Server

/-! ## Running -/

/-- Empties lanes as a drain says, and waits until it is over. -/
def drainBy (s : Server) (d : Drain) : Server := { s with drain := d }.await .drain

/-- Takes one batch from each lane and waits for the answers; gives the number of ids taken. -/
def tick (s : Server) : Server × Nat :=
  let s := s.drainBy .everyLane
  (s, s.drain.pulled)

/-- Empties the most urgent lane, if the server is running. -/
def drainUrgent (s : Server) : Server := if s.running then s.drainBy .urgent else s

/-- Lets an amount of time pass. -/
def advance (s : Server) (ms : Nat) : Server :=
  s.await (.time (s.now.add (ms * Time.millisecond)))

/-- The channels whose carriers are not ready. Only enabled channels are asked. -/
def failingChannels (s : Server) : List String :=
  ((s.engine.registry.filter fun c => c.spec.enabled).filter fun c =>
    match s.carriers.lookup c.id with
    | none => false
    | some carrier =>
      match carrier.healthCheck c.id s.outside with
      | .ok () => false
      | .error _ => true).map Channel.id

/-- Starts the ticker, after a look at the channels. -/
def start (s : Server) : Server :=
  if s.running then s
  else
    { s with
      running := true
      engine := s.engine.markFailing s.failingChannels
      ticker := some ⟨s.now.add s.tickPeriod, .idle⟩ }

/-- Stops the ticker once its drain is over. What is queued stays queued. -/
def stop (s : Server) : Server :=
  if s.running then
    -- No tick starts any more, but the drain of the last one goes on to its end.
    { ({ s with running := false }.await .ticker) with ticker := none }
  else s

/-- Prunes finished messages now and at regular times from now on. A server that reports its
statistics has a task for that, too. -/
def maintain (s : Server) (retentionSecs statsSecs : UInt64) : Server :=
  let pruner : Pruner := ⟨s.now, retentionSecs⟩
  let tasks := s.tasks + if statsSecs = 0 then 1 else 2
  -- The clock stands still, but the first pruning is due now.
  { s with pruners := s.pruners ++ [pruner], tasks }.await (.time s.now)

/-! ## Messages -/

/-- Empties the most urgent lane, if new messages went there. -/
def afterNew (s : Server) (priority : Priority) (messages : List Message) : Server :=
  if priority = .immediate && !messages.isEmpty then s.drainUrgent else s

/-- Sends an alert to recipients at a priority. Gives the messages as they were made. -/
def notify (s : Server) (alert : Alert) (recipientIds : List String) (priority : Priority) :
    Server × List Message :=
  let (engine, messages) := s.engine.fanOut alert recipientIds priority s.now
  -- Urgent messages may be over by now, but they are given as they were queued.
  ({ s with engine }.afterNew priority messages, messages)

/-- Goes on after a request for one message. -/
def afterRequest (s : Server) (request : Engine × Except DispatchError Message) :
    Server × Except DispatchError Message :=
  match request with
  | (engine, .error e) => ({ s with engine }, .error e)
  | (engine, .ok message) => ({ s with engine }.afterNew message.priority [message], .ok message)

/-- Posts an alert to a webhook channel. -/
def callWebhook (s : Server) (alert : Alert) (channelId : String) (url : Option String) :
    Server × Except DispatchError Message :=
  s.afterRequest (s.engine.sendWebhook alert channelId url s.now)

/-- Sends one message to a recipient over a channel. -/
def sendCustom (s : Server) (recipientId channelId templateId : String) (context : Json)
    (priority : Priority) : Server × Except DispatchError Message :=
  s.afterRequest (s.engine.sendCustom recipientId channelId templateId context priority s.now)

/-! ## Events -/

/-- The id of the next alert. Alerts share the supply of ids with the messages. -/
def nextAlertId (s : Server) : String := s.engine.idSupply.id .alert (s.alertsMade + 1)

/-- Raises an alert, which is given its id. -/
def raise (s : Server) (alert : String → Alert) : Server × Alert :=
  ({ s with alertsMade := s.alertsMade + 1 }, alert s.nextAlertId)

/-- What came of an event. -/
structure Outcome where
  alerts : List Alert
  messages : List Message
  /-- The actions that could not be taken, a line for each. -/
  failedActions : List String

namespace Outcome

/-- Nothing. -/
def nothing : Outcome := ⟨[], [], []⟩

/-- What came of one thing and then of another. -/
def append (a b : Outcome) : Outcome :=
  ⟨a.alerts ++ b.alerts, a.messages ++ b.messages, a.failedActions ++ b.failedActions⟩

end Outcome

/-- The line for a webhook that could not be called. -/
def failedWebhook (rule : Rule) (channelId : String) (e : DispatchError) : String :=
  "rule '" ++ rule.id ++ "': webhook_call '" ++ channelId ++ "': " ++ e.message

/-- Takes an action of a rule for its alert. -/
def act (s : Server) (rule : Rule) (alert : Alert) : Action → Server × Outcome
  -- The alert was raised before the first action, with the texts that this one gives.
  | .createAlert .. => (s, .nothing)
  | .notify recipients =>
    let (s, messages) := s.notify alert recipients (s.engine.policy.priorityFor alert.severity)
    (s, ⟨[], messages, []⟩)
  | .escalate recipients priority =>
    let (s, messages) := s.notify alert recipients priority
    (s, ⟨[], messages, []⟩)
  | .webhookCall channelId url =>
    match s.callWebhook alert channelId url with
    | (s, .ok message) => (s, ⟨[], [message], []⟩)
    | (s, .error e) => (s, ⟨[], [], [failedWebhook rule channelId e]⟩)

/-- Takes actions one after the other. -/
def actAll (rule : Rule) (alert : Alert) : Server → List Action → Server × Outcome
  | s, [] => (s, .nothing)
  | s, a :: rest =>
    let (s, first) := s.act rule alert a
    let (s, others) := actAll rule alert s rest
    (s, first.append others)

/-- Raises the alert of a rule that triggered, and takes its actions. -/
def respond (event : Event) (s : Server) (rule : Rule) : Server × Outcome :=
  let now := s.now
  let (s, alert) := s.raise fun id => rule.detect event id now
  let (s, outcome) := actAll rule alert s rule.actions
  (s, Outcome.append ⟨[alert], [], []⟩ outcome)

/-- Responds to the rules that triggered, one after the other. -/
def respondAll (event : Event) : Server → List Rule → Server × Outcome
  | s, [] => (s, .nothing)
  | s, rule :: rest =>
    let (s, first) := respond event s rule
    let (s, others) := respondAll event s rest
    (s, first.append others)

/-- Runs an event through the rules. -/
def handleEvent (s : Server) (event : Event) : Server × Outcome :=
  -- All rules see the event before the first alert is raised.
  let (rules, triggered) := s.rules.process event s.now
  respondAll event { s with rules } (triggered.map fun t => t.loaded.rule)

end Server

end Klaxon
