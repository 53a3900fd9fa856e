import Klaxon.Dispatch.Attempt

/-!
# Runs of the engine

A run is any sequence of turns, each at an instant of its own. A turn is one step that nothing comes
in between: a message of a fan-out is made, a batch is pulled, a message is claimed, the attempt at
it begins, its call ends, a timer fires, a message is cancelled, and so on. Requests, ticks and
timers that overlap are sequences of turns, in any order; `fanOut_eq_run` and `reaches_takeUp` say
so of the two functions of the engine that are longer than a turn.

`Engine.history` is what an observer of a run sees happen to the messages.
-/

namespace Klaxon

/-- One step of an engine. -/
inductive Turn where
  /-- The message of an alert for a recipient over a channel type, as in a fan-out. -/
  | offer (alert : Alert) (recipient : Recipient) (priority : Priority) (channelType : ChannelType)
  /-- Quiet hours hold an alert back. -/
  | holdBack
  | sendCustom (recipientId channelId templateId : String) (context : Json) (priority : Priority)
  | sendWebhook (alert : Alert) (channelId : String) (url : Option String)
  | cancel (id : String)
  | prune (before : Instant)
  | pull (priority : Priority)
  | claim (id : String)
  /-- The work on a claimed message begins. -/
  | attempt (id : String)
  | complete (id : String) (report : Report)
  | fire (timer : Timer)
  | report
  | setDirectory (directory : Directory)
  | markUnhealthy (channelId : String)
  | restore (channelId : String)

/-- Whether a turn may make messages. -/
def Turn.isRequest : Turn → Bool
  | .offer .. | .holdBack | .sendCustom .. | .sendWebhook .. => true
  | _ => false

/-- The recipient that a turn offers an alert to. -/
def Turn.recipient? : Turn → Option Recipient
  | .offer _ recipient _ _ => some recipient
  | _ => none

/-- The message whose timer fires in a turn, or whose delivery goes on. -/
def Turn.worksOn? : Turn → Option String
  | .claim id | .attempt id | .complete id _ => some id
  | .fire timer => some timer.messageId
  | _ => none

/-- What is seen to happen to a message. -/
inductive Happening where
  | made (m : Message)
  /-- The work on a message began, which is given as it was claimed. -/
  | begun (m : Message)
  /-- The deliverer was called. -/
  | called (id : String) (call : Call)
  /-- The deliverer answered. -/
  | answered (id : String) (report : Report)
  /-- An attempt ended, and the message is as it is given from then on. -/
  | recorded (m : Message) (now : Instant)
  | cancelled (m : Message) (now : Instant)

namespace Happening

/-- The message that something happened to. -/
def messageId : Happening → String
  | .made m | .begun m | .recorded m _ | .cancelled m _ => m.id
  | .called id _ | .answered id _ => id

/-- What happened to one message. -/
def about (id : String) (hs : List Happening) : List Happening :=
  hs.filter fun h => h.messageId == id

/-- What happened to one message is picked out stretch by stretch. -/
@[simp] theorem about_append (id : String) (hs hs' : List Happening) :
    about id (hs ++ hs') = about id hs ++ about id hs' :=
  List.filter_append hs hs'

/-- Nothing is left out where everything happened to the one message. -/
theorem about_of_forall_eq {id : String} {hs : List Happening} (h : ∀ x ∈ hs, x.messageId = id) :
    about id hs = hs :=
  List.filter_eq_self.mpr fun x hx => beq_iff_eq.mpr (h x hx)

/-- Nothing is left where everything happened to others. -/
theorem about_of_forall_ne {id : String} {hs : List Happening} (h : ∀ x ∈ hs, x.messageId ≠ id) :
    about id hs = [] :=
  List.filter_eq_nil_iff.mpr fun x hx => by simpa using h x hx

end Happening

namespace Engine

/-- Takes a turn. A turn that nothing is there for changes nothing. -/
def turn (e : Engine) (now : Instant) : Turn → Engine
  | .offer alert recipient priority channelType =>
    (e.notifyOver alert recipient priority now channelType).1
  | .holdBack => { e with statistics := e.statistics.recordSuppressed }
  | .sendCustom recipientId channelId templateId context priority =>
    (e.sendCustom recipientId channelId templateId context priority now).1
  | .sendWebhook alert channelId url => (e.sendWebhook alert channelId url now).1
  | .cancel id => (e.cancel id).1
  | .prune before => (e.prune before).1
  | .pull priority => (e.pull priority).1
  | .claim id =>
    -- An id that is not in a batch, or was claimed before, is left alone.
    match e.stage? id with
    | some .pulled => e.claim id now
    | _ => e
  | .attempt id =>
    match e.stage? id with
    | some (.claimed m attemptedAt) => (e.attempt m attemptedAt now).1
    | _ => e
  | .complete id report => e.complete id report now
  | .fire timer =>
    if timer ∈ e.timers then e.fire timer else e
  | .report => (e.report now).1
  | .setDirectory directory => e.setDirectory directory
  | .markUnhealthy channelId => e.modifyChannel channelId Channel.markUnhealthy
  | .restore channelId => e.modifyChannel channelId Channel.restore

/-- The end of an attempt, as it is seen in the engine behind it. -/
def recorded (after : Engine) (id : String) (now : Instant) : List Happening :=
  (after.message? id).toList.map fun m => .recorded m now

/-- A message that a request made. -/
def madeBy : Except DispatchError Message → List Happening
  | .ok m => [.made m]
  | .error _ => []

/-- What is seen to happen in a turn. -/
def happenings (e : Engine) (now : Instant) : Turn → List Happening
  | .offer alert recipient priority channelType =>
    (e.notifyOver alert recipient priority now channelType).2.map .made
  | .sendCustom recipientId channelId templateId context priority =>
    madeBy (e.sendCustom recipientId channelId templateId context priority now).2
  | .sendWebhook alert channelId url => madeBy (e.sendWebhook alert channelId url now).2
  | .cancel id =>
    match (e.cancel id).2 with
    | .ok m => [.cancelled m now]
    | .error _ => []
  | .attempt id =>
    match e.stage? id with
    | some (.claimed m attemptedAt) =>
      .begun m ::
        -- An attempt without a call is over at once, and has left its record.
        match e.attempt m attemptedAt now with
        | (_, some call) => [.called id call]
        | (after, none) => after.recorded id now
    | _ => []
  | .complete id report =>
    match e.callOf? id with
    | some _ => .answered id report :: (e.complete id report now).recorded id now
    | none => []
  | _ => []

/-- Takes turns one after the other. -/
def run (e : Engine) : List (Instant × Turn) → Engine
  | [] => e
  | (now, t) :: rest => (e.turn now t).run rest

/-- What is seen to happen in a run. -/
def history (e : Engine) : List (Instant × Turn) → List Happening
  | [] => []
  | (now, t) :: rest => e.happenings now t ++ (e.turn now t).history rest

/-- What is observed of the turns of a run, one after the other. -/
def observe {α : Type} (what : Engine → Instant → Turn → List α) (e : Engine) :
    List (Instant × Turn) → List α
  | [] => []
  | (now, t) :: rest => what e now t ++ (e.turn now t).observe what rest

/-- A run can be taken in two parts. -/
@[simp] theorem run_append (e : Engine) (ts us : List (Instant × Turn)) :
    e.run (ts ++ us) = (e.run ts).run us := by
  induction ts generalizing e with
  | nil => rfl
  | cons t ts ih => exact ih (e.turn t.1 t.2)

/-- Of a run in two parts first the one is seen, then the other. -/
@[simp] theorem history_append (e : Engine) (ts us : List (Instant × Turn)) :
    e.history (ts ++ us) = e.history ts ++ (e.run ts).history us := by
  induction ts generalizing e with
  | nil => rfl
  | cons t ts ih =>
    have h := ih (e.turn t.1 t.2)
    simp only [List.cons_append, history, run, h, List.append_assoc]

/-- So is whatever is observed of it. -/
@[simp] theorem observe_append {α : Type} (what : Engine → Instant → Turn → List α) (e : Engine)
    (ts us : List (Instant × Turn)) :
    e.observe what (ts ++ us) = e.observe what ts ++ (e.run ts).observe what us := by
  induction ts generalizing e with
  | nil => rfl
  | cons t ts ih =>
    have h := ih (e.turn t.1 t.2)
    simp only [List.cons_append, observe, run, h, List.append_assoc]

/-! ## What is made of turns -/

/-- Some run leads from one engine to another. -/
def Reaches (e e' : Engine) : Prop := ∃ turns, e.run turns = e'

/-- An engine reaches itself. -/
theorem Reaches.refl (e : Engine) : e.Reaches e := ⟨[], rfl⟩

/-- What is reached from an engine that is reached is reached. -/
theorem Reaches.trans {a b c : Engine} (hab : a.Reaches b) (hbc : b.Reaches c) : a.Reaches c := by
  obtain ⟨ts, rfl⟩ := hab
  obtain ⟨us, rfl⟩ := hbc
  exact ⟨ts ++ us, run_append a ts us⟩

/-- A turn is a run. -/
theorem reaches_turn (e : Engine) (now : Instant) (t : Turn) : e.Reaches (e.turn now t) :=
  ⟨[(now, t)], rfl⟩

/-- To take an id up is to claim its message and to begin the attempt. -/
theorem takeUp_eq_turn (e : Engine) (id : String) (now : Instant) :
    (e.takeUp id now).1 = (e.claim id now).turn now (.attempt id) := by
  simp only [takeUp, turn]
  -- Both go by the stage that the claim has led to.
  generalize e.claim id now = e₁
  cases e₁.stage? id with
  | none => rfl
  | some s => cases s <;> rfl

/-- To take a pulled id up is a run. -/
theorem reaches_takeUp {e : Engine} {id : String} (h : e.stage? id = some .pulled)
    (now : Instant) : e.Reaches (e.takeUp id now).1 := by
  refine ⟨[(now, .claim id), (now, .attempt id)], ?_⟩
  rw [takeUp_eq_turn]
  simp only [run, turn, h]

end Engine

end Klaxon
