import Klaxon.Dispatch.Attempt
import Klaxon.Server.Assembly
import Klaxon.Server.Carrier

/-!
# The state of a server

A server is an engine at a point in time, with the rules that feed it and the carriers that it hands
messages to. A call of a carrier may take time; until its answer comes, the call is open.

Lanes are emptied by drains. A drain takes a batch from its first lane, hands the messages over in
their order and waits until all answers are in, then turns to the next lane. Two drains may be under
way: that of the ticker, which the server starts by itself, and one that was asked for.
-/

namespace Klaxon

/-- A call of a carrier whose answer has not come yet. -/
structure OpenCall where
  /-- The calls are numbered. -/
  number : Nat
  messageId : String
  /-- When the answer comes. -/
  due : Instant
  report : Report

/-- The emptying of lanes. -/
structure Drain where
  /-- The lanes that are still to be emptied, the current one first. -/
  lanes : List Priority
  /-- Whether a lane is emptied batch by batch until nothing is left, and not just by one batch. -/
  thorough : Bool
  /-- The numbers of the calls that it made last. -/
  calls : List Nat
  /-- The number of ids that it took. -/
  pulled : Nat

namespace Drain

/-- A drain with nothing to do. -/
def idle : Drain := ⟨[], false, [], 0⟩

/-- One batch from each lane, the most urgent first. -/
def everyLane : Drain := ⟨Priority.all, false, [], 0⟩

/-- All that is in the most urgent lane. -/
def urgent : Drain := ⟨[.immediate], true, [], 0⟩

/-- Whether a drain waits for one of the open calls. -/
def isWaiting (d : Drain) (calls : List OpenCall) : Bool :=
  calls.any fun c => d.calls.contains c.number

/-- Whether a drain is over. -/
def isDone (d : Drain) (calls : List OpenCall) : Bool := d.lanes.isEmpty && !d.isWaiting calls

/-- Whether a drain can take its next batch. -/
def isReady (d : Drain) (calls : List OpenCall) : Bool := !d.lanes.isEmpty && !d.isWaiting calls

end Drain

/-- What starts a drain at regular times. -/
structure Ticker where
  /-- When the next drain is due. -/
  next : Instant
  /-- The drain of the last tick. -/
  drain : Drain

/-- The regular pruning of finished messages. -/
structure Pruner where
  next : Instant
  retentionSecs : UInt64
  deriving DecidableEq

/-- A server at a point in time. -/
structure Server where
  now : Instant
  engine : Engine
  rules : RuleSet
  /-- The carriers of the channels by their ids. -/
  carriers : List (String × Carrier)
  inbox : Inbox
  outside : Outside
  /-- The number of alerts raised so far. -/
  alertsMade : Nat
  calls : List OpenCall
  /-- The number of calls that were open at some time. -/
  callsMade : Nat
  /-- Whether the ticker may start drains. -/
  running : Bool
  ticker : Option Ticker
  /-- The drain that was asked for last. -/
  drain : Drain
  pruners : List Pruner
  /-- The number of tasks that maintenance has begun. -/
  tasks : Nat
  /-- What the scripts were handed, with the ids of their channels, the first one first. -/
  handedOver : List (String × Delivery)

namespace Server

/-- A server with assembled parts that has not started. -/
def create (parts : Assembly Carrier) (inboxCapacity : Nat) (outside : Outside) (now : Instant) :
    Server :=
  { now
    engine := parts.engine
    rules := parts.rules
    carriers := parts.transports
    inbox := .withCapacity inboxCapacity
    outside
    alertsMade := 0
    calls := []
    callsMade := 0
    running := false
    ticker := none
    drain := .idle
    pruners := []
    tasks := 0
    handedOver := [] }

/-- Gives scripts of their own to channels that are rehearsed. -/
def withScripts (s : Server) (scripts : List (String × Script)) : Server :=
  { s with carriers := s.carriers.map fun (id, c) =>
      match c, scripts.lookup id with
      -- A transport is not rehearsed, and keeps its place even if a script bears its id.
      | .script _, some script => (id, .script script)
      | c, _ => (id, c) }

/-- Sets the carrier of a channel. -/
def setCarrier (s : Server) (channelId : String) (carrier : Carrier) : Server :=
  { s with carriers := s.carriers.map fun c => if c.1 == channelId then (c.1, carrier) else c }

/-- Hands a message to the carrier of its channel; gives the reply and the server behind it. -/
def handOver (s : Server) (call : Call) : Server × Reply :=
  match s.carriers.lookup call.channelId with
  -- A channel without a carrier answers for it with an error.
  | none => (s, .prompt (.error (.channelNotFound call.channelId)))
  | some carrier =>
    let (changed, inbox, reply) := carrier.deliver s.outside s.inbox s.now call.delivery
    let handedOver :=
      if carrier.isScript then s.handedOver ++ [(call.channelId, call.delivery)]
      else s.handedOver
    ({ s with inbox, handedOver }.setCarrier call.channelId changed, reply)

/-- Takes up an id from a batch. An answer that comes at once is recorded at once; otherwise the
call stays open, and its number is given. -/
def begin (s : Server) (id : String) : Server × Option Nat :=
  match s.engine.takeUp id s.now with
  | (engine, none) => ({ s with engine }, none)
  | (engine, some call) =>
    let (s, reply) := { s with engine }.handOver call
    -- What is answered at once is recorded before the next id of the batch is taken up.
    if reply.delayMs = 0 then
      ({ s with engine := s.engine.complete id reply.report s.now }, none)
    else
      let number := s.callsMade + 1
      let due := s.now.add (reply.delayMs * Time.millisecond)
      ({ s with callsMade := number, calls := s.calls ++ [⟨number, id, due, reply.report⟩] },
        some number)

/-- Takes up ids in their order; gives the numbers of the calls that stay open. -/
def beginAll : Server → List String → Server × List Nat
  | s, [] => (s, [])
  | s, id :: rest =>
    let (s, number) := s.begin id
    let (s, numbers) := s.beginAll rest
    (s, number.toList ++ numbers)

/-- Takes the next batch of a drain. -/
def stepDrain (s : Server) (d : Drain) : Server × Drain :=
  match d.lanes with
  | [] => (s, d)
  | lane :: rest =>
    let (engine, ids) := s.engine.pull lane
    let (s, calls) := { s with engine }.beginAll ids
    -- A thorough drain turns to the next lane when it finds this one empty.
    let lanes := if d.thorough && !ids.isEmpty then lane :: rest else rest
    (s, { d with lanes, calls, pulled := d.pulled + ids.length })

end Server

end Klaxon
