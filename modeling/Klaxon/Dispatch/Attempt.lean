import Klaxon.Dispatch.Engine

/-!
# Attempts

The steps of the engine between a lane and the end of an attempt. `pull` takes a batch of ids from a
lane, `claim` claims the message of one of them, `attempt` gives the call to be made for it, and
`complete` records how the call ended: the message is delivered, waits for another attempt, or
failed. `fire` ends a timer. Between any two of these steps the engine can be asked anything else;
`takeUp` is `claim` with `attempt` right behind it.
-/

namespace Klaxon

namespace Engine

/-- Takes a batch of ids from a lane. -/
def pull (e : Engine) (priority : Priority) : Engine × List String :=
  let (lanes, ids) := e.lanes.pull priority (e.policy.batchSize priority)
  ({ e with lanes, flights := e.flights ++ ids.map fun id => ⟨id, .pulled⟩ }, ids)

/-- How far the flight of an id is. -/
def stage? (e : Engine) (id : String) : Option Stage :=
  (e.flights.find? fun f => f.messageId == id).map Flight.stage

/-- Moves the flight of an id on. -/
def moveFlight (e : Engine) (id : String) (stage : Stage) : Engine :=
  { e with flights := e.flights.map fun f => if f.messageId == id then ⟨id, stage⟩ else f }

/-- Ends the flight of an id. -/
def land (e : Engine) (id : String) : Engine :=
  { e with flights := e.flights.filter fun f => f.messageId != id }

/-- Starts a timer for the next attempt. -/
def schedule (e : Engine) (id : String) (priority : Priority) (due : Instant) : Engine :=
  { e with timers := e.timers ++ [⟨id, priority, due⟩] }

/-- When an attempt is due that waits for a number of milliseconds, at the latest the last instant
there is. -/
def retryAt (now : Instant) (delayMs : UInt64) : Instant :=
  let due := now.add (delayMs.toNat * Time.millisecond)
  if due ≤ Time.maxInstant then due else Time.maxInstant

/-- The attempt that a call was, before its outcome is known. -/
def attemptOf (m : Message) (attemptedAt : Instant) (report : Report) : Attempt :=
  { number := m.nextAttemptNumber
    attemptedAt
    outcome := .failed
    responseCode := none
    responseMessage := none
    error := none
    latencyMs := report.latencyMs
    retryDelayMs := none }

/-- Records that a message was delivered. -/
def settleDelivered (e : Engine) (m : Message) (channelId : String) (attempt : Attempt)
    (receipt : Receipt) (now : Instant) : Engine :=
  let attempt :=
    { attempt with
      outcome := .success
      responseCode := receipt.responseCode
      responseMessage := receipt.responseMessage.map fun s => Text.truncate s Text.maxKeptBytes }
  match m.recordSuccess attempt now with
  -- Only a message that is being sent can be delivered.
  | .error _ => e
  | .ok m =>
    let e := (e.putMessage m).modifyChannel channelId fun c => c.recordDelivered attempt.latencyMs
    { e with statistics := e.statistics.recordDelivered m.priority attempt.latencyMs now }

/-- Records that a message waits for another attempt. -/
def settleRetry (e : Engine) (m : Message) (attempt : Attempt) (delayMs : UInt64)
    (now : Instant) : Engine :=
  let attempt := { attempt with outcome := .retry, retryDelayMs := some delayMs }
  match m.recordRetry attempt (retryAt now delayMs) with
  | .error _ => e
  | .ok m =>
    -- The timer waits for the whole delay, also where the message can only name the last instant.
    (e.putMessage m).schedule m.id m.priority (now.add (delayMs.toNat * Time.millisecond))

/-- Records that a message failed for good. -/
def settleFailed (e : Engine) (m : Message) (channelId : String) (attempt : Attempt)
    (now : Instant) : Engine :=
  match m.recordFailure { attempt with outcome := .failed } with
  | .error _ => e
  | .ok m =>
    let e := (e.putMessage m).modifyChannel channelId Channel.recordFailed
    { e with statistics := e.statistics.recordFailed m.priority now }

/-- Whether an error counts against the health of its channel. -/
def speaksAgainstChannel (error : DispatchError) : Bool :=
  decide (error.kind = .transient) && !error.isRateLimit

/-- Counts an error against the health of its channel, if it speaks against it. -/
def blame (e : Engine) (channelId : String) (error : DispatchError) : Engine :=
  -- A channel that is not at fault stays healthy: refusals and its own limits do not count.
  if speaksAgainstChannel error then
    e.modifyChannel channelId fun c => (c.recordAttemptFailure e.policy.unhealthyAfter).1
  else e

/-- Records how an attempt at a message ended. An attempt that is not `retryable` is the last one
whatever the channel says. -/
def settle (e : Engine) (m : Message) (channel : Channel) (attemptedAt : Instant)
    (report : Report) (retryable : Bool) (now : Instant) : Engine :=
  let attempt := attemptOf m attemptedAt report
  match report.result with
  | .ok receipt => e.settleDelivered m channel.id attempt receipt now
  | .error error =>
    let attempt := { attempt with error := some error.message, responseCode := error.status? }
    let e := e.blame channel.id error
    -- The attempt, the channel and the spacing of the channel all have a say in another attempt.
    if retryable && channel.shouldRetry error &&
        channel.spec.retryPolicy.allowsRetry attempt.number then
      e.settleRetry m attempt (channel.spec.retryPolicy.delayFor attempt.number) now
    else e.settleFailed m channel.id attempt now

/-- Records that the channel of a message does not exist. -/
def settleOrphan (e : Engine) (m : Message) (attemptedAt now : Instant) : Engine :=
  let attempt :=
    { attemptOf m attemptedAt ⟨.error (.channelNotFound m.channelId), 0⟩ with
      error := some (DispatchError.channelNotFound m.channelId).message }
  match m.recordFailure attempt with
  | .error _ => e
  | .ok failed =>
    -- There is no channel to count the message, but the totals count it as sent.
    let statistics :=
      if m.attempts.isEmpty then e.statistics.recordSent m.priority now else e.statistics
    { e.putMessage failed with statistics := statistics.recordFailed m.priority now }

/-- Renders a message by its template. -/
def render (e : Engine) (m : Message) : Except DispatchError RenderedContent :=
  match e.templates.get? m.templateId with
  | none => .error (.templateNotFound m.templateId)
  | some t => t.render m.channelType m.context

/-- Counts a message at its first attempt. -/
def countFirst (e : Engine) (m : Message) (channelId : String) (now : Instant) : Engine :=
  if m.attempts.isEmpty then
    { e.modifyChannel channelId Channel.recordSent with
      statistics := e.statistics.recordSent m.priority now }
  else e

/-- The content of a message: what it holds already, or what its template gives. The second part is
the content that is new. -/
def contentOf (e : Engine) (m : Message) :
    Except DispatchError (RenderedContent × Option RenderedContent) :=
  -- What was rendered once is sent by every later attempt, whatever becomes of the template.
  if m.isRendered then .ok (⟨m.subject.getD "", m.body.getD "", m.format⟩, none)
  else
    match e.render m with
    | .error error => .error error
    | .ok content => .ok (content, some content)

/-- The message with the content that is new. -/
def withNewContent (m : Message) : Option RenderedContent → Message
  | none => m
  | some content => m.withContent content

/-- Records how an attempt at the message of an id ended, with the content that is new. -/
def record (e : Engine) (id : String) (channel : Channel) (attemptedAt : Instant)
    (content : Option RenderedContent) (report : Report) (retryable : Bool) (now : Instant) :
    Engine :=
  match e.message? id with
  | none => e
  | some m =>
    let m := withNewContent m content
    (e.putMessage m).settle m channel attemptedAt report retryable now

/-- Records that the channel of the message of an id does not exist. -/
def recordOrphan (e : Engine) (id : String) (attemptedAt now : Instant) : Engine :=
  match e.message? id with
  | none => e
  | some m => e.settleOrphan m attemptedAt now

/-- Claims the message of an id from a batch. The flight ends if its message does not wait any
more. -/
def claim (e : Engine) (id : String) (now : Instant) : Engine :=
  match e.message? id with
  | none => e.land id
  | some m =>
    match m.beginSending with
    | .error _ => e.land id
    | .ok m => (e.putMessage m).moveFlight id (.claimed m now)

/-- Goes on with a message that was claimed, gives the call to be made unless the attempt is over
already. -/
def attempt (e : Engine) (m : Message) (attemptedAt now : Instant) : Engine × Option Call :=
  match e.registry.get? m.channelId with
  | none => ((e.recordOrphan m.id attemptedAt now).land m.id, none)
  | some channel =>
    let e := e.countFirst m channel.id attemptedAt
    match e.contentOf m with
    | .error error =>
      ((e.record m.id channel attemptedAt none ⟨.error error, 0⟩ false now).land m.id, none)
    | .ok (content, rendered) =>
      -- The rate limit is asked behind the rendering, so that a broken template takes no turn.
      let e := e.modifyChannel channel.id fun c => (c.tryAcquire attemptedAt).1
      if (channel.tryAcquire attemptedAt).2 then
        let call : Call :=
          { channelId := channel.id, attemptedAt, rendered
            delivery := .ofMessage m content }
        (e.moveFlight m.id (.calling call), some call)
      else
        let report : Report := ⟨.error (.rateLimited channel.id), 0⟩
        ((e.record m.id channel attemptedAt rendered report true now).land m.id, none)

/-- Claims the message of an id and goes on with it at once. -/
def takeUp (e : Engine) (id : String) (now : Instant) : Engine × Option Call :=
  let e := e.claim id now
  match e.stage? id with
  | some (.claimed m attemptedAt) => e.attempt m attemptedAt now
  | _ => (e, none)

/-- The call under way for a message. -/
def callOf? (e : Engine) (id : String) : Option Call :=
  match e.stage? id with
  | some (.calling call) => some call
  | _ => none

/-- Records how the call for a message ended. -/
def complete (e : Engine) (id : String) (report : Report) (now : Instant) : Engine :=
  match e.callOf? id with
  | none => e
  | some call =>
    -- No channel is ever removed, so that the one of the call is there.
    match e.registry.get? call.channelId with
    | none => e.land id
    | some channel =>
      (e.record id channel call.attemptedAt call.rendered report true now).land id

/-- Puts an id back into its lane if its message still waits. -/
def requeue (e : Engine) (id : String) (priority : Priority) : Engine :=
  match e.message? id with
  -- What was cancelled behind its timer does not come back.
  | some m => if m.status = .queued then { e with lanes := e.lanes.push priority id } else e
  | none => e

/-- Ends the first timer that is equal to a timer. -/
def fire (e : Engine) (timer : Timer) : Engine :=
  { e with timers := e.timers.erase timer }.requeue timer.messageId timer.priority

/-- Takes channels that failed their health check out of the choice for alerts. -/
def markFailing (e : Engine) (channelIds : List String) : Engine :=
  channelIds.foldl (fun e id => e.modifyChannel id Channel.markUnhealthy) e

end Engine

end Klaxon
