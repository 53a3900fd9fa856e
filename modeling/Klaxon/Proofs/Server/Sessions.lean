import Klaxon.Proofs.Dispatch.Batches
import Klaxon.Proofs.Dispatch.Notices
import Klaxon.Proofs.Dispatch.Conservation
import Klaxon.Server.Control
import Klaxon.Server.Session

/-!
# A server takes turns

All that a server does with its engine are turns. `Server.RunsFrom` says so of one server, and the
lemmas of this module show that it stays so when a drain takes a batch, when time passes, when an
event is handled and when the server is looked after. So a session is a run of the engine that its
configuration gives (`Session.serve_runsFrom`), whose channels are fresh (`assemble_isFresh`), and
whatever holds in every run holds in it.
-/

namespace Klaxon

namespace Engine

/-- Channels are marked by turns, one after the other. -/
theorem reaches_markFailing (e : Engine) (now : Instant) (channelIds : List String) :
    e.Reaches (e.markFailing channelIds) := by
  induction channelIds generalizing e with
  | nil => exact .refl e
  | cons id rest ih => exact (e.reaches_turn now (.markUnhealthy id)).trans (ih _)

end Engine

namespace Server

/-- The engine of a server is what a run made of an engine. -/
def RunsFrom (s : Server) (e₀ : Engine) : Prop := e₀.Reaches s.engine

variable {c e₀ : Engine} {past : List Happening} {s : Server}

/-- A turn of its engine keeps a server in a run. -/
theorem RunsFrom.turn (h : s.RunsFrom e₀) (now : Instant) (t : Turn) :
    e₀.Reaches (s.engine.turn now t) :=
  h.trans (s.engine.reaches_turn now t)

/-! ## Drains -/

/-- To hand a call over leaves the engine as it is. -/
theorem engine_handOver (s : Server) (call : Call) : (s.handOver call).1.engine = s.engine := by
  unfold handOver
  split <;> rfl

/-- To begin with an id is to take it up, and to record its answer if that comes at once. -/
theorem engine_begin (s : Server) (id : String) :
    (s.begin id).1.engine = (s.engine.takeUp id s.now).1 ∨
      ∃ report now,
        (s.begin id).1.engine = (s.engine.takeUp id s.now).1.complete id report now := by
  unfold Server.begin
  generalize s.engine.takeUp id s.now = taken
  obtain ⟨engine, call⟩ := taken
  cases call with
  | none => exact .inl rfl
  | some call =>
    have hengine := engine_handOver { s with engine } call
    simp only
    generalize Server.handOver { s with engine } call = handed at hengine
    obtain ⟨s', reply⟩ := handed
    simp only at hengine ⊢
    split
    · exact .inr ⟨reply.report, s'.now, by rw [hengine]⟩
    · exact .inl hengine

/-- To begin with a pulled id keeps a server in a run, and leaves the other ids where they are. -/
theorem RunsFrom.begin (h : s.RunsFrom e₀) (h₀ : c.Sound e₀ past) {id : String}
    (hp : s.engine.stage? id = some .pulled) :
    (s.begin id).1.RunsFrom e₀ ∧
      ∀ j, j ≠ id → (s.begin id).1.engine.stage? j = s.engine.stage? j := by
  have htaken : e₀.Reaches (s.engine.takeUp id s.now).1 :=
    h.trans (Engine.reaches_takeUp hp s.now)
  obtain ⟨_, hsound⟩ := h₀.of_reaches h
  obtain ⟨_, hsound'⟩ := h₀.of_reaches htaken
  have hothers : ∀ j, j ≠ id →
      (s.engine.takeUp id s.now).1.stage? j = s.engine.stage? j := fun j hj =>
    (hsound.takeUp_agrees hp s.now hj).stage?
  unfold RunsFrom
  rcases s.engine_begin id with hbegin | ⟨report, now, hbegin⟩
  · rw [hbegin]
    exact ⟨htaken, hothers⟩
  · rw [hbegin]
    exact ⟨htaken.trans (Engine.reaches_turn _ now (.complete id report)), fun j hj =>
      (hsound'.complete_agrees report now hj).stage?.trans (hothers j hj)⟩

/-- A batch whose ids are pulled keeps a server in a run. -/
theorem RunsFrom.beginAll (h : s.RunsFrom e₀) (h₀ : c.Sound e₀ past) {ids : List String}
    (hn : ids.Nodup) (hp : ∀ id ∈ ids, s.engine.stage? id = some .pulled) :
    (s.beginAll ids).1.RunsFrom e₀ := by
  -- The ids behind the first one are still pulled when it was taken up, since they are others.
  induction ids generalizing s with
  | nil => exact h
  | cons id rest ih =>
    obtain ⟨hhead, hrest⟩ := List.nodup_cons.mp hn
    obtain ⟨hbegun, hothers⟩ := h.begin h₀ (hp id List.mem_cons_self)
    refine ih hbegun hrest fun j hj => ?_
    have hne : j ≠ id := fun he => hhead (he ▸ hj)
    exact (hothers j hne).trans (hp j (List.mem_cons_of_mem id hj))

/-- The step of a drain keeps a server in a run. -/
theorem RunsFrom.stepDrain (h : s.RunsFrom e₀) (h₀ : c.Sound e₀ past) (d : Drain) :
    (s.stepDrain d).1.RunsFrom e₀ := by
  unfold Server.stepDrain
  split
  · exact h
  · next lane rest _ =>
    obtain ⟨past, hsound⟩ := h₀.of_reaches h
    have hpulled : Server.RunsFrom { s with engine := (s.engine.pull lane).1 } e₀ :=
      h.turn s.now (.pull lane)
    exact hpulled.beginAll h₀ (hsound.nodup_pull lane) fun id hid => hsound.pulled_of_pull lane hid

/-! ## The passing of time -/

/-- What is earliest of several timers is one of them. -/
theorem mem_of_dueNow? {α : Type} {time : α → Instant} {items : List α} {a : α}
    (h : s.dueNow? time items = some a) : a ∈ items := by
  unfold dueNow? at h
  split at h
  · next b hb =>
    split at h
    · exact Option.some.inj h ▸ (mem_and_le_of_earliest?_eq_some hb).1
    · simp at h
  · simp at h

/-- Only a timer that is set can be the next to end. -/
theorem mem_timers_of_nextMove? {timer : Timer} (h : s.nextMove? = some (.fire timer)) :
    timer ∈ s.engine.timers := by
  -- Timers are looked at first, and no other kind of move is the end of one.
  unfold nextMove? at h
  split at h
  · next t ht =>
    obtain rfl : t = timer := by simpa using h
    exact mem_of_dueNow? ht
  · split at h
    · simp at h
    · split at h
      · next m hm =>
        unfold tickerMove? at hm
        split at hm
        · simp at hm
        · split at hm
          · simp_all
          · split at hm <;> simp_all
      · split at h
        · simp at h
        · split at h <;> simp at h

/-- What happens next keeps a server in a run. -/
theorem RunsFrom.move (h : s.RunsFrom e₀) (h₀ : c.Sound e₀ past) {m : Move}
    (hm : s.nextMove? = some m) : (s.move m).RunsFrom e₀ := by
  cases m with
  | fire timer =>
    have hturn : s.engine.turn s.now (.fire timer) = s.engine.fire timer :=
      if_pos (mem_timers_of_nextMove? hm)
    have hfired := h.turn s.now (.fire timer)
    rw [hturn] at hfired
    exact hfired
  | answer call => exact h.turn s.now (.complete call.messageId call.report)
  | tick => exact h
  | drainOnTick t => exact h.stepDrain h₀ t.drain
  | prune p => exact h.turn s.now (.prune _)
  | drain => exact h.stepDrain h₀ s.drain

/-- What is kept by all that happens and by the clock is kept as time passes. -/
theorem run_induction {P : Server → Prop}
    (hmove : ∀ s m, P s → s.nextMove? = some m → P (s.move m))
    (hclock : ∀ s t, P s → P (s.moveTo t)) (fuel : Nat) (goal : Goal) (h : P s) :
    P (Server.run fuel goal s) := by
  induction fuel generalizing s with
  | zero => exact h
  | succ fuel ih =>
    unfold Server.run
    split
    · next m hm => exact ih (hmove s m h hm)
    · -- The goal is reached, or the clock moves on, or there is nothing to wait for.
      split
      · exact h
      · split
        · exact ih (hclock s _ h)
        · exact h

/-- Time that passes keeps a server in a run. -/
theorem RunsFrom.run (h : s.RunsFrom e₀) (h₀ : c.Sound e₀ past) (fuel : Nat) (goal : Goal) :
    (Server.run fuel goal s).RunsFrom e₀ :=
  run_induction (P := fun s => s.RunsFrom e₀) (fun _ _ h hm => h.move h₀ hm) (fun _ _ h => h) fuel
    goal h

/-- To wait for something keeps a server in a run. -/
theorem RunsFrom.await (h : s.RunsFrom e₀) (h₀ : c.Sound e₀ past) (goal : Goal) :
    (s.await goal).RunsFrom e₀ := h.run h₀ patience goal

/-! ## Requests -/

/-- A drain that is asked for keeps a server in a run. -/
theorem RunsFrom.drainBy (h : s.RunsFrom e₀) (h₀ : c.Sound e₀ past) (d : Drain) :
    (s.drainBy d).RunsFrom e₀ :=
  RunsFrom.await (s := { s with drain := d }) h h₀ .drain

/-- A tick that is asked for keeps a server in a run. -/
theorem RunsFrom.tick (h : s.RunsFrom e₀) (h₀ : c.Sound e₀ past) : s.tick.1.RunsFrom e₀ :=
  h.drainBy h₀ .everyLane

/-- So does time that passes. -/
theorem RunsFrom.advance (h : s.RunsFrom e₀) (h₀ : c.Sound e₀ past) (ms : Nat) :
    (s.advance ms).RunsFrom e₀ := h.await h₀ _

/-- A server that starts stays in a run. -/
theorem RunsFrom.start (h : s.RunsFrom e₀) : s.start.RunsFrom e₀ := by
  unfold Server.start
  split
  · exact h
  · exact h.trans (s.engine.reaches_markFailing s.now s.failingChannels)

/-- A server that stops stays in a run. -/
theorem RunsFrom.stop (h : s.RunsFrom e₀) (h₀ : c.Sound e₀ past) : s.stop.RunsFrom e₀ := by
  unfold Server.stop
  split
  · exact RunsFrom.await (s := { s with running := false }) h h₀ .ticker
  · exact h

/-- Upkeep keeps a server in a run. -/
theorem RunsFrom.maintain (h : s.RunsFrom e₀) (h₀ : c.Sound e₀ past)
    (retentionSecs statsSecs : UInt64) : (s.maintain retentionSecs statsSecs).RunsFrom e₀ := by
  unfold Server.maintain
  refine RunsFrom.await ?_ h₀ _
  exact h

/-- The drain for new urgent messages keeps a server in a run. -/
theorem RunsFrom.afterNew (h : s.RunsFrom e₀) (h₀ : c.Sound e₀ past) (priority : Priority)
    (messages : List Message) : (s.afterNew priority messages).RunsFrom e₀ := by
  unfold Server.afterNew drainUrgent
  split
  · split
    · exact h.drainBy h₀ .urgent
    · exact h
  · exact h

/-- A fan-out keeps a server in a run. -/
theorem RunsFrom.notify (h : s.RunsFrom e₀) (h₀ : c.Sound e₀ past) (alert : Alert)
    (recipientIds : List String) (priority : Priority) :
    (s.notify alert recipientIds priority).1.RunsFrom e₀ :=
  RunsFrom.afterNew
    (s := { s with engine := (s.engine.fanOut alert recipientIds priority s.now).1 })
    (h.trans (s.engine.reaches_fanOut alert recipientIds priority s.now)) h₀ _ _

/-- A request for one message keeps a server in a run, served or refused. -/
theorem RunsFrom.afterRequest {request : Engine × Except DispatchError Message}
    (h : e₀.Reaches request.1) (h₀ : c.Sound e₀ past) (s : Server) :
    (s.afterRequest request).1.RunsFrom e₀ := by
  obtain ⟨engine, result⟩ := request
  cases result with
  | error error => exact h
  | ok message => exact RunsFrom.afterNew (s := { s with engine }) h h₀ _ _

/-- The call of a webhook keeps a server in a run. -/
theorem RunsFrom.callWebhook (h : s.RunsFrom e₀) (h₀ : c.Sound e₀ past) (alert : Alert)
    (channelId : String) (url : Option String) :
    (s.callWebhook alert channelId url).1.RunsFrom e₀ :=
  .afterRequest (h.turn s.now (.sendWebhook alert channelId url)) h₀ s

/-- A message of one's own keeps a server in a run. -/
theorem RunsFrom.sendCustom (h : s.RunsFrom e₀) (h₀ : c.Sound e₀ past)
    (recipientId channelId templateId : String) (context : Json) (priority : Priority) :
    (s.sendCustom recipientId channelId templateId context priority).1.RunsFrom e₀ :=
  .afterRequest
    (h.turn s.now (.sendCustom recipientId channelId templateId context priority)) h₀ s

/-! ## Events -/

/-- An action of a rule keeps a server in a run. -/
theorem RunsFrom.act (h : s.RunsFrom e₀) (h₀ : c.Sound e₀ past) (rule : Rule) (alert : Alert)
    (action : Action) : (s.act rule alert action).1.RunsFrom e₀ := by
  cases action with
  | createAlert => exact h
  | notify recipients => exact h.notify h₀ alert recipients _
  | escalate recipients priority => exact h.notify h₀ alert recipients priority
  | webhookCall channelId url =>
    have hcalled := h.callWebhook h₀ alert channelId url
    unfold Server.act
    simp only
    generalize s.callWebhook alert channelId url = called at hcalled ⊢
    obtain ⟨s', result⟩ := called
    cases result with
    | error error => exact hcalled
    | ok message => exact hcalled

/-- The actions of a rule keep a server in a run. -/
theorem RunsFrom.actAll (h : s.RunsFrom e₀) (h₀ : c.Sound e₀ past) (rule : Rule) (alert : Alert)
    (actions : List Action) : (s.actAll rule alert actions).1.RunsFrom e₀ := by
  induction actions generalizing s with
  | nil => exact h
  | cons a rest ih => exact ih (h.act h₀ rule alert a)

/-- The handling of an event keeps a server in a run. -/
theorem RunsFrom.handleEvent (h : s.RunsFrom e₀) (h₀ : c.Sound e₀ past) (event : Event) :
    (s.handleEvent event).1.RunsFrom e₀ := by
  -- An alert is raised and acted upon for each rule that triggered, one after the other.
  have hall : ∀ (rules : List Rule) (s : Server), s.RunsFrom e₀ →
      (respondAll event s rules).1.RunsFrom e₀ := by
    intro rules
    induction rules with
    | nil => exact fun s hs => hs
    | cons rule rest ih =>
      intro s hs
      refine ih _ ?_
      have hraised : (s.raise fun id => rule.detect event id s.now).1.RunsFrom e₀ := hs
      exact hraised.actAll h₀ rule _ rule.actions
  unfold Server.handleEvent
  exact hall _ _ h

/-! ## Looking after a server -/

/-- A cancellation keeps a server in a run. -/
theorem RunsFrom.cancel (h : s.RunsFrom e₀) (id : String) : (s.cancel id).1.RunsFrom e₀ :=
  h.turn s.now (.cancel id)

/-- A pruning keeps a server in a run. -/
theorem RunsFrom.prune (h : s.RunsFrom e₀) (before : Instant) : (s.prune before).1.RunsFrom e₀ :=
  h.turn s.now (.prune before)

/-- A look at the statistics keeps a server in a run. -/
theorem RunsFrom.statistics (h : s.RunsFrom e₀) : s.statistics.1.RunsFrom e₀ :=
  h.turn s.now .report

/-- To mark a channel keeps a server in a run; an unknown one is not marked. -/
theorem RunsFrom.markUnhealthy (h : s.RunsFrom e₀) (channelId : String) :
    (s.markUnhealthy channelId).1.RunsFrom e₀ := by
  unfold Server.markUnhealthy Registry.markUnhealthy Registry.modifyExisting
  split
  · exact h.turn s.now (.markUnhealthy channelId)
  · exact h

/-- To restore a channel keeps a server in a run; an unknown one is not restored. -/
theorem RunsFrom.restore (h : s.RunsFrom e₀) (channelId : String) :
    (s.restore channelId).1.RunsFrom e₀ := by
  unfold Server.restore Registry.restore Registry.modifyExisting
  split
  · exact h.turn s.now (.restore channelId)
  · exact h

/-- A new recipient keeps a server in a run. -/
theorem RunsFrom.upsertRecipient (h : s.RunsFrom e₀) (recipient : Recipient) :
    (s.upsertRecipient recipient).RunsFrom e₀ :=
  h.turn s.now (.setDirectory _)

/-- The removal of a recipient keeps a server in a run. -/
theorem RunsFrom.removeRecipient (h : s.RunsFrom e₀) (id : String) :
    (s.removeRecipient id).1.RunsFrom e₀ :=
  h.turn s.now (.setDirectory _)

end Server

/-! ## Sessions -/

namespace Assembly

/-- What holds of nothing and is kept by each definition that is taken holds of all that is
loaded. -/
theorem loadAll_induction {α β : Type} {load : α → β → Except DispatchError α}
    {describe : β → String} {P : α → Prop}
    (hload : ∀ a b a', P a → load a b = .ok a' → P a') (bs : List β) (l : Loaded α)
    (h : P l.value) : P (loadAll load describe bs l).value := by
  induction bs generalizing l with
  | nil => exact h
  | cons b rest ih =>
    unfold loadAll
    split
    · next a' ha' => exact ih _ (hload _ _ _ h ha')
    · exact ih _ h

/-- A channel that is built has counted nothing. -/
theorem counters_of_buildChannel {τ : Type} {plugins : Plugins τ} {spec : ChannelSpec}
    {channel : Channel} {transport : τ}
    (h : plugins.buildChannel spec = .ok (channel, transport)) : channel.counters = .zero := by
  obtain ⟨⟨_, _⟩, -, h⟩ := Engine.bind_eq_ok h
  obtain ⟨built, hbuilt, h⟩ := Engine.bind_eq_ok h
  obtain ⟨rfl, -⟩ := Prod.mk.inj (Except.ok.inj h)
  exact Channel.counters_create hbuilt

/-- The channels that a configuration gives are fresh. -/
theorem isFresh_loadChannels {τ : Type} (plugins : Plugins τ) (specs : List ChannelSpec) :
    Registry.IsFresh (loadChannels plugins specs).value.1 := by
  refine loadAll_induction
    (P := fun loaded : Registry × List (String × τ) => Registry.IsFresh loaded.1)
    (fun loaded spec loaded' hfresh h => ?_) specs _ Registry.isFresh_nil
  unfold loadChannel at h
  obtain ⟨⟨channel, transport⟩, hbuilt, h⟩ := Engine.bind_eq_ok h
  have hregistered := hfresh.register (counters_of_buildChannel hbuilt)
  simp only at h
  split at h
  · simp at h
  · next registry hregister =>
    rw [hregister] at hregistered
    obtain rfl := Except.ok.inj h
    exact hregistered

end Assembly

/-- The engine of a server that was just assembled. -/
theorem assemble_sound {τ : Type} (plugins : Plugins τ) (config : ServerConfig)
    (idSupply : IdSupply) : (assemble plugins config idSupply).engine.Sound
      (assemble plugins config idSupply).engine [] :=
  Engine.create_sound _ _ _ _ _

/-- The channels of a server that was just assembled are fresh. -/
theorem assemble_isFresh {τ : Type} (plugins : Plugins τ) (config : ServerConfig)
    (idSupply : IdSupply) :
    Registry.IsFresh (assemble plugins config idSupply).engine.registry :=
  Assembly.isFresh_loadChannels plugins config.channels

namespace Session

open Server

/-- A server that was just opened is a run of the engine that its configuration gives. -/
theorem openServer_runsFrom (config : ServerConfig) (outside : Outside) (now : Instant)
    (idSupply : IdSupply) : (openServer config outside now idSupply).RunsFrom
      (assemble Carrier.plugins config idSupply).engine := by
  have hcreated : (Server.create (assemble Carrier.plugins config idSupply)
      config.inboxCapacity.toNat outside now).RunsFrom
        (assemble Carrier.plugins config idSupply).engine := .refl _
  unfold openServer
  exact hcreated.start.maintain (assemble_sound Carrier.plugins config idSupply) _ _

/-- A session is a run of the engine that its configuration gives. -/
theorem serve_runsFrom (config : ServerConfig) (outside : Outside) (now : Instant)
    (idSupply : IdSupply) (id : String) (time : Instant) (lines : List String) :
    (serve (openServer config outside now idSupply) id time lines).1.RunsFrom
      (assemble Carrier.plugins config idSupply).engine := by
  have h₀ := assemble_sound Carrier.plugins config idSupply
  generalize he₀ : (assemble Carrier.plugins config idSupply).engine = e₀ at h₀
  have hline (s : Server) (line : String) (hs : s.RunsFrom e₀) :
      (handleLine s id time line).1.RunsFrom e₀ := by
    unfold handleLine
    split
    · exact hs
    · exact hs.handleEvent h₀ _
  have hopen := openServer_runsFrom config outside now idSupply
  rw [he₀] at hopen
  unfold serve close
  simp only
  refine (RunsFrom.stop ?_ h₀).tick h₀
  -- The lines are handled one after the other, and each leaves a server in the run.
  refine List.foldlRecOn lines _ (motive := fun acc : Server × List Alert => acc.1.RunsFrom e₀)
    hopen ?_
  intro acc hacc line _
  exact hline acc.1 line hacc

/-- In a session no message is lost, and none is queued twice. -/
theorem serve_accounted (config : ServerConfig) (outside : Outside) (now : Instant)
    (idSupply : IdSupply) (id : String) (time : Instant) (lines : List String) :
    (serve (openServer config outside now idSupply) id time lines).1.engine.Accounted := by
  have h₀ := assemble_sound Carrier.plugins config idSupply
  obtain ⟨past, hsound⟩ :=
    h₀.of_reaches (serve_runsFrom config outside now idSupply id time lines)
  exact hsound.accounted

end Session

end Klaxon
