import Klaxon.Proofs.Server.Requests
import Klaxon.Proofs.Server.Tickers

/-!
# Lanes in their order, and none forgotten

Whatever is asked of a server, what it does is a run of `Ticking` (`LeadsTo.take`); so every server
that requests lead to is shown by a run from the one that was just assembled (`takeAll_leadsTo`).
`run_serves` says for all runs, with everything that can happen at once, what priorities promise:
each tick goes down the lanes in their order, and no id waits for longer than its place in its lane
allows.
-/

namespace Klaxon

namespace Ticking

variable {t : Ticking} {s s' : Server}

/-- Some run shows a server. -/
def LeadsTo (t : Ticking) (s : Server) : Prop :=
  ∃ acts own asked, (t.run acts).Shows s own asked

/-- A run may go on. -/
theorem leadsTo_of_run (acts : List Act) (h : (t.run acts).LeadsTo s) : t.LeadsTo s := by
  obtain ⟨more, own, asked, hmore⟩ := h
  refine ⟨acts ++ more, own, asked, ?_⟩
  rw [run_append]
  exact hmore

namespace LeadsTo

/-! ## Changes of a server -/

/-- Anything may change beside the engine, the open calls and the drains. That of the ticker may be
gone, or have nothing to do. -/
theorem alter (h : t.LeadsTo s) (hengine : s'.engine = s.engine) (hcalls : s'.calls = s.calls)
    (hmade : s'.callsMade = s.callsMade) (hdrain : s'.drain = s.drain)
    (hticker : ∀ ticker', s'.ticker = some ticker' → ticker'.drain.lanes = [] ∨
      ∃ ticker, s.ticker = some ticker ∧ ticker'.drain = ticker.drain) : t.LeadsTo s' := by
  obtain ⟨acts, own, asked, rfl, hown, hidle, hasked⟩ := h
  refine leadsTo_of_run acts ⟨[.alter s'], own, asked, ?_⟩
  refine shows_alter hengine hcalls hmade (fun ticker' hsome => ?_) (fun hnone => ?_) fun n hn => ?_
  · rcases hticker ticker' hsome with hnil | ⟨ticker, hticker, hsame⟩
    · exact .inl hnil
    · rw [hsame]
      exact hown ticker hticker
  · rw [hdrain]
    exact hidle hnone
  · rw [hdrain]
    exact hasked n hn

/-- Anything may change beside the engine, the open calls and both drains. -/
theorem alterBeside (h : t.LeadsTo s) (hengine : s'.engine = s.engine)
    (hcalls : s'.calls = s.calls) (hmade : s'.callsMade = s.callsMade)
    (hdrain : s'.drain = s.drain) (hticker : s'.ticker = s.ticker) : t.LeadsTo s' :=
  h.alter hengine hcalls hmade hdrain fun ticker' hsome =>
    .inr ⟨ticker', hticker ▸ hsome, rfl⟩

/-- The engine may take a turn. -/
theorem turn (h : t.LeadsTo s) (turn : Turn) :
    t.LeadsTo { s with engine := s.engine.turn s.now turn } := by
  obtain ⟨acts, own, asked, hs⟩ := h
  exact leadsTo_of_run acts ⟨[.turn turn], own, asked, hs.turn turn⟩

/-- The engine may go on to any other that a run leads to. -/
theorem reaches (h : t.LeadsTo s) {e : Engine} (he : s.engine.Reaches e) :
    t.LeadsTo { s with engine := e } := by
  obtain ⟨turns, rfl⟩ := he
  induction turns generalizing s with
  | nil => exact h
  | cons first rest ih =>
    obtain ⟨time, first⟩ := first
    -- A turn is taken at a time of its own; behind it the clock of the server is set back.
    have hclock : t.LeadsTo { s with now := time } := h.alterBeside rfl rfl rfl rfl rfl
    have hturned : t.LeadsTo { s with engine := s.engine.turn time first } :=
      (hclock.turn first).alterBeside rfl rfl rfl rfl rfl
    exact ih hturned

/-- Time may pass. -/
theorem await (h : t.LeadsTo s) (goal : Server.Goal) : t.LeadsTo (s.await goal) := by
  obtain ⟨acts, own, asked, hs⟩ := h
  obtain ⟨more, own', hmore⟩ := hs.run Server.patience goal
  exact leadsTo_of_run acts ⟨more, own', asked, hmore⟩

/-! ## Requests -/

/-- A tick that is asked for may be taken. -/
theorem tick (h : t.LeadsTo s) : t.LeadsTo s.tick.1 := by
  obtain ⟨acts, own, asked, hs⟩ := h
  obtain ⟨more, own', hmore⟩ := hs.tick
  exact leadsTo_of_run acts ⟨_, own', _, hmore⟩

/-- New urgent messages may be sent. -/
theorem afterNew (h : t.LeadsTo s) (priority : Priority) (messages : List Message) :
    t.LeadsTo (s.afterNew priority messages) := by
  have hurged : t.LeadsTo (s.drainBy .urgent) := by
    obtain ⟨acts, own, asked, hs⟩ := h
    obtain ⟨more, own', hmore⟩ := hs.urge
    exact leadsTo_of_run acts ⟨_, own', _, hmore⟩
  -- The lane is emptied only for urgent messages, and only if the server is running.
  unfold Server.afterNew Server.drainUrgent
  split
  · split
    · exact hurged
    · exact h
  · exact h

/-- An alert may go out to recipients. -/
theorem notify (h : t.LeadsTo s) (alert : Alert) (recipientIds : List String)
    (priority : Priority) : t.LeadsTo (s.notify alert recipientIds priority).1 :=
  afterNew (h.reaches (s.engine.reaches_fanOut alert recipientIds priority s.now)) _ _

/-- A request for one message may be served, or refused. -/
theorem afterRequest (h : t.LeadsTo s) {request : Engine × Except DispatchError Message}
    (he : s.engine.Reaches request.1) : t.LeadsTo (s.afterRequest request).1 := by
  obtain ⟨engine, result⟩ := request
  cases result with
  | error error => exact h.reaches he
  | ok message => exact (h.reaches he).afterNew _ _

/-- A webhook may be called. -/
theorem callWebhook (h : t.LeadsTo s) (alert : Alert) (channelId : String)
    (url : Option String) : t.LeadsTo (s.callWebhook alert channelId url).1 :=
  h.afterRequest (s.engine.reaches_turn s.now (.sendWebhook alert channelId url))

/-- A message of one's own may be sent. -/
theorem sendCustom (h : t.LeadsTo s) (recipientId channelId templateId : String)
    (context : Json) (priority : Priority) :
    t.LeadsTo (s.sendCustom recipientId channelId templateId context priority).1 :=
  h.afterRequest (s.engine.reaches_turn s.now
    (.sendCustom recipientId channelId templateId context priority))

/-- An action of a rule may be taken. -/
theorem act (h : t.LeadsTo s) (rule : Rule) (alert : Alert) (action : Action) :
    t.LeadsTo (s.act rule alert action).1 := by
  cases action with
  | createAlert => exact h
  | notify recipients => exact h.notify alert recipients _
  | escalate recipients priority => exact h.notify alert recipients priority
  | webhookCall channelId url =>
    have hcalled := h.callWebhook alert channelId url
    unfold Server.act
    simp only
    -- A call that fails is noted, which is no part of the server.
    generalize s.callWebhook alert channelId url = called at hcalled ⊢
    obtain ⟨s', result⟩ := called
    cases result <;> exact hcalled

/-- The actions of a rule may be taken. -/
theorem actAll (h : t.LeadsTo s) (rule : Rule) (alert : Alert) (actions : List Action) :
    t.LeadsTo (Server.actAll rule alert s actions).1 := by
  induction actions generalizing s with
  | nil => exact h
  | cons a rest ih => exact ih (h.act rule alert a)

/-- Rules may respond to an event. -/
theorem respondAll (h : t.LeadsTo s) (event : Event) (rules : List Rule) :
    t.LeadsTo (Server.respondAll event s rules).1 := by
  induction rules generalizing s with
  | nil => exact h
  | cons rule rest ih =>
    -- The alert has its number before its actions are taken.
    have hraised : t.LeadsTo { s with alertsMade := s.alertsMade + 1 } :=
      h.alterBeside rfl rfl rfl rfl rfl
    exact ih (hraised.actAll rule _ rule.actions)

/-- An event may come. -/
theorem handleEvent (h : t.LeadsTo s) (event : Event) : t.LeadsTo (s.handleEvent event).1 := by
  have hprocessed : t.LeadsTo { s with rules := (s.rules.process event s.now).1 } :=
    h.alterBeside rfl rfl rfl rfl rfl
  exact hprocessed.respondAll event _

/-- The server may start. -/
theorem start (h : t.LeadsTo s) : t.LeadsTo s.start := by
  unfold Server.start
  split
  · exact h
  · refine (h.reaches (s.engine.reaches_markFailing s.now s.failingChannels)).alter
      rfl rfl rfl rfl fun ticker' hsome => .inl ?_
    -- The new ticker has no drain under way.
    obtain rfl := Option.some.inj hsome
    rfl

/-- The server may stop. -/
theorem stop (h : t.LeadsTo s) : t.LeadsTo s.stop := by
  unfold Server.stop
  split
  · have hstopping : t.LeadsTo { s with running := false } := h.alterBeside rfl rfl rfl rfl rfl
    exact (hstopping.await .ticker).alter rfl rfl rfl rfl fun ticker' hsome => by simp at hsome
  · exact h

/-- The server may be looked after. -/
theorem maintain (h : t.LeadsTo s) (retentionSecs statsSecs : UInt64) :
    t.LeadsTo (s.maintain retentionSecs statsSecs) := by
  have hset (pruners : List Pruner) (tasks : Nat) : t.LeadsTo { s with pruners, tasks } :=
    h.alterBeside rfl rfl rfl rfl rfl
  unfold Server.maintain
  exact (hset _ _).await _

/-- Whatever is asked of a server, what it does is a run. -/
theorem take (h : t.LeadsTo s) (request : Server.Request) : t.LeadsTo (s.take request) := by
  cases request with
  | handle event => exact h.handleEvent event
  | raise => exact h.alterBeside rfl rfl rfl rfl rfl
  | notify alert recipientIds priority => exact h.notify alert recipientIds priority
  | callWebhook alert channelId url => exact h.callWebhook alert channelId url
  | sendCustom => exact h.sendCustom _ _ _ _ _
  | changeRules => exact h.alterBeside rfl rfl rfl rfl rfl
  | upsertRecipient => exact h.turn (.setDirectory _)
  | removeRecipient => exact h.turn (.setDirectory _)
  | markUnhealthy channelId =>
    exact h.reaches (Server.RunsFrom.markUnhealthy (.refl s.engine) channelId)
  | restore channelId => exact h.reaches (Server.RunsFrom.restore (.refl s.engine) channelId)
  | cancel id => exact h.turn (.cancel id)
  | prune before => exact h.turn (.prune before)
  | statistics => exact h.turn .report
  | markRead => exact h.alterBeside rfl rfl rfl rfl rfl
  | takeHandedOver => exact h.alterBeside rfl rfl rfl rfl rfl
  | tick => exact h.tick
  | advance => exact h.await _
  | start => exact h.start
  | stop => exact h.stop
  | maintain retentionSecs statsSecs => exact h.maintain retentionSecs statsSecs

end LeadsTo

/-- Every server that requests lead to is shown by a run. -/
theorem takeAll_leadsTo (plugins : Plugins Carrier) (config : ServerConfig)
    (scripts : List (String × Script)) (outside : Outside) (now : Instant) (idSupply : IdSupply)
    (requests : List Server.Request) :
    (opening plugins config outside now idSupply).LeadsTo
      ((Server.ofConfig plugins config scripts outside now idSupply).takeAll requests) := by
  have hcreated : (opening plugins config outside now idSupply).LeadsTo
      (.create (assemble plugins config idSupply) config.inboxCapacity.toNat outside now) := by
    refine ⟨[], 0, none, rfl, fun ticker h => ?_, fun _ => rfl, fun n h => ?_⟩
    · simp [Server.create] at h
    · simp at h
  -- Scripts are set beside the engine, so that they are no act of the run.
  have hfirst : (opening plugins config outside now idSupply).LeadsTo
      (Server.ofConfig plugins config scripts outside now idSupply) :=
    hcreated.alterBeside rfl rfl rfl rfl rfl
  exact List.foldlRecOn requests Server.take hfirst fun _ hs request _ => hs.take request

/-! ## What priorities promise -/

/-- What priorities promise, whatever goes on at once. -/
structure Serves (t : Ticking) : Prop where
  /-- Every tick goes down the lanes in their order. -/
  ticks : ∀ n w, t.drains[n]? = some w → w.isTick = true → t.GoesDown n w
  /-- Ids leave a lane at its front, a batch at a time, and come to its end. -/
  lanes : ∀ a p, if t.pulls p a then (t.step a).lane p = (t.lane p).drop (t.batchSize p)
    else ∃ more, (t.step a).lane p = t.lane p ++ more
  /-- A batch has room for some id. -/
  batches : ∀ p, 0 < t.batchSize p
  /-- An id leaves its lane once more ticks are over than there are full batches before it. -/
  leaves : ∀ p k id acts, (t.lane p)[k]? = some id → k / t.batchSize p < t.ticksDone acts →
    ∃ before, before <+: acts ∧ id ∉ (t.run before).lane p
  /-- What a server does as time passes, the drains of its ticker included, is a run. -/
  time : ∀ s own asked, t.Shows s own asked → ∀ fuel goal,
    ∃ acts own', (t.run acts).Shows (Server.run fuel goal s) own' asked
  /-- So is what it does when something is asked of it. -/
  requests : ∀ s own asked, t.Shows s own asked → ∀ request, t.LeadsTo (s.take request)
  /-- The tick that a server is asked for is one of the ticks. -/
  asked : ∀ s own asked, t.Shows s own asked →
    ∃ acts own', (t.run (.tick :: acts)).Shows s.tick.1 own' (some t.drains.length)

/-- In every state that a server comes to, ticks go down the lanes in their order, and an id leaves
its lane at the latest with the tick that its place in the lane calls for. Whatever is asked of a
server for the configuration, one of these runs shows the server that comes of it. -/
theorem run_serves (plugins : Plugins Carrier) (config : ServerConfig) (outside : Outside)
    (now : Instant) (idSupply : IdSupply) :
    (∀ acts, ((opening plugins config outside now idSupply).run acts).Serves) ∧
      ∀ scripts requests, (opening plugins config outside now idSupply).LeadsTo
        ((Server.ofConfig plugins config scripts outside now idSupply).takeAll requests) := by
  refine ⟨fun acts => ?_, fun scripts requests =>
    takeAll_leadsTo plugins config scripts outside now idSupply requests⟩
  -- What holds of all states follows from the invariant at the one that the acts lead to.
  obtain ⟨hopening, hnone⟩ := opening_sound plugins config outside now idSupply
  obtain ⟨hsound, hsettled⟩ := hopening.run hnone acts
  constructor
  · exact fun n w hn htick => hsound.goesDown hsettled hn htick
  · exact fun a p => lane_step _ a p
  · exact fun p => Policy.batchSize_pos _ p
  · exact fun p k id more hk hticks => hsound.leaves_of_ticks hsettled hk hticks
  · exact fun s own asked h fuel goal => h.run fuel goal
  · exact fun s own asked h request => LeadsTo.take ⟨[], own, asked, h⟩ request
  · exact fun s own asked h => h.tick

end Ticking

end Klaxon
