import Klaxon.Proofs.Dispatch.Tallies

/-!
# What the record of an attempt does

`Engine.settle` decides between delivered, retried and failed. `settle_spec` says what comes of it
for a message that is being sent: the message `Settles`, a timer is set if it is to be retried, and
everything else that messages depend on stays. Between the claim of a message and the record of its
attempt the message is being sent, so that this covers every record that there is.
-/

namespace Klaxon

namespace Engine

/-- What a run never changes, and the number of messages made. -/
structure Keeps (e e' : Engine) : Prop where
  templates : e'.templates = e.templates
  idSupply : e'.idSupply = e.idSupply
  specs : e'.registry.map Channel.spec = e.registry.map Channel.spec
  made : e'.made = e.made

/-- An engine keeps what it is. -/
theorem Keeps.refl (e : Engine) : e.Keeps e := ⟨rfl, rfl, rfl, rfl⟩

/-- What is kept twice is kept. -/
theorem Keeps.trans {a b c : Engine} (hab : a.Keeps b) (hbc : b.Keeps c) : a.Keeps c :=
  ⟨hbc.templates.trans hab.templates, hbc.idSupply.trans hab.idSupply, hbc.specs.trans hab.specs,
    hbc.made.trans hab.made⟩

/-- Channels keep the specifications that they are found with. -/
theorem Keeps.spec? {e e' : Engine} (h : e.Keeps e') (id : String) : e'.spec? id = e.spec? id :=
  spec?_congr h.specs id

/-- Two engines that differ at most in what they count and in how their channels are doing. -/
structure Alike (e e' : Engine) : Prop extends Keeps e e' where
  messages : e'.messages = e.messages
  lanes : e'.lanes = e.lanes
  timers : e'.timers = e.timers
  flights : e'.flights = e.flights

/-- An engine is alike to itself. -/
theorem Alike.refl (e : Engine) : e.Alike e := ⟨.refl e, rfl, rfl, rfl, rfl⟩

/-- Being alike can be chained. -/
theorem Alike.trans {a b c : Engine} (hab : a.Alike b) (hbc : b.Alike c) : a.Alike c :=
  ⟨hab.toKeeps.trans hbc.toKeeps, hbc.messages.trans hab.messages, hbc.lanes.trans hab.lanes,
    hbc.timers.trans hab.timers, hbc.flights.trans hab.flights⟩

/-- Such engines agree on every id. -/
theorem Alike.agrees {e e' : Engine} (h : e.Alike e') (id : String) : e.Agrees e' id where
  message := by unfold message?; rw [h.messages]
  lanes p := by rw [h.lanes]
  timers := by unfold timersOf; rw [h.timers]
  flights := by unfold flightsOf; rw [h.flights]

/-- Channels keep their definitions. -/
theorem alike_modifyChannel (e : Engine) (id : String) {change : Channel → Channel}
    (hc : ∀ c, (change c).spec = c.spec) : e.Alike (e.modifyChannel id change) := by
  refine ⟨⟨rfl, rfl, ?_, rfl⟩, rfl, rfl, rfl, rfl⟩
  unfold modifyChannel Registry.modify
  rw [List.map_map]
  refine List.map_congr_left fun c _ => ?_
  by_cases h : c.id = id <;> simp [h, hc]

/-! ## Records -/

/-- Statistics are of no account for messages. -/
theorem alike_statistics (e : Engine) (statistics : Statistics) :
    e.Alike { e with statistics } := ⟨⟨rfl, rfl, rfl, rfl⟩, rfl, rfl, rfl, rfl⟩

/-- To blame a channel changes nothing that messages depend on. -/
theorem alike_blame (e : Engine) (channelId : String) (error : DispatchError) :
    e.Alike (e.blame channelId error) := by
  unfold blame
  split
  · exact e.alike_modifyChannel channelId fun c => spec_recordAttemptFailure c _
  · exact .refl e

/-- Neither does a milestone. -/
theorem alike_mark (e : Engine) (m : Message) (k : Milestone) (latencyMs : UInt64)
    (now : Instant) : e.Alike (e.mark m k latencyMs now) :=
  (e.alike_modifyChannel m.channelId (k.spec_change latencyMs)).trans (alike_statistics _ _)

/-- Neither does the count of a first attempt. -/
theorem alike_countFirst (e : Engine) (m : Message) (now : Instant) :
    e.Alike (e.countFirst m m.channelId now) := by
  rw [countFirst_eq]
  split
  · exact e.alike_mark m .sent 0 now
  · exact .refl e

/-- The engine with another state of a message, and with a timer for it. -/
def withRecord (e : Engine) (m : Message) (t : Option Timer) : Engine :=
  { e.putMessage m with timers := e.timers ++ t.toList }

/-- Without a timer a record is the message alone. -/
theorem withRecord_none (e : Engine) (m : Message) : e.withRecord m none = e.putMessage m := by
  unfold withRecord putMessage
  simp

/-- The record of a message goes well with what is counted. -/
theorem Alike.withRecord {e e' : Engine} (h : e.Alike e') (m : Message) (t : Option Timer) :
    (e.withRecord m t).Alike (e'.withRecord m t) := by
  refine ⟨⟨h.templates, h.idSupply, h.specs, h.made⟩, ?_, h.lanes, ?_, h.flights⟩
  · simp only [Engine.withRecord, putMessage, h.messages]
  · simp only [Engine.withRecord, h.timers]

/-- The record of a delivery. -/
theorem settleDelivered_eq (e : Engine) {m : Message} (hs : m.status = .sending) (a : Attempt)
    (receipt : Receipt) (now : Instant) :
    ∃ (m' : Message) (a' : Attempt), m' = { m with
        status := .delivered, attempts := m.attempts ++ [a'], deliveredAt := some now } ∧
      a'.number = a.number ∧ a'.attemptedAt = a.attemptedAt ∧ a'.outcome = .success ∧
      a'.retryDelayMs = a.retryDelayMs ∧
      e.settleDelivered m m.channelId a receipt now =
        (e.putMessage m').mark m' .delivered a'.latencyMs now := by
  refine ⟨_, { a with
    outcome := .success
    responseCode := receipt.responseCode
    responseMessage := receipt.responseMessage.map fun s => Text.truncate s Text.maxKeptBytes },
    rfl, rfl, rfl, rfl, rfl, ?_⟩
  simp only [settleDelivered, Message.recordSuccess, Message.moveTo, hs, Status.allows, if_true,
    Except.map]
  rfl

/-- The record of a failure behind which there is another attempt. -/
theorem settleRetry_eq (e : Engine) {m : Message} (hs : m.status = .sending) (a : Attempt)
    (delayMs : UInt64) (now : Instant) :
    e.settleRetry m a delayMs now =
      e.withRecord { m with
        status := .queued
        attempts := m.attempts ++ [{ a with outcome := .retry, retryDelayMs := some delayMs }]
        scheduledAt := retryAt now delayMs }
          (some ⟨m.id, m.priority, now.add (delayMs.toNat * Time.millisecond)⟩) := by
  simp only [settleRetry, Message.recordRetry, Message.moveTo, hs, Status.allows, if_true,
    Except.map]
  rfl

/-- The record of a failure for good. -/
theorem settleFailed_eq (e : Engine) {m : Message} (hs : m.status = .sending) (a : Attempt)
    (now : Instant) :
    ∃ m' : Message, m' = { m with
        status := .failed, attempts := m.attempts ++ [{ a with outcome := .failed }] } ∧
      e.settleFailed m m.channelId a now = (e.putMessage m').mark m' .failed 0 now := by
  refine ⟨_, rfl, ?_⟩
  simp only [settleFailed, Message.recordFailure, Message.moveTo, hs, Status.allows, if_true,
    Except.map]
  rfl

/-- The attempt at a message is recorded. The engine holds `m'` then, has a timer if the message is
to be retried, and has counted what the record says. -/
structure Recorded (e : Engine) (spec : ChannelSpec) (attemptedAt now : Instant)
    (report : Report) (m m' : Message) (t : Option Timer) (e' : Engine) : Prop where
  settles : m.Settles spec attemptedAt now report m' t
  alike : (e.withRecord m' t).Alike e'
  tally : ∀ w, e'.tally w = w.bump (e.tally w) (.recorded m' now)

/-- What the end of an attempt does to a message that is being sent, and to the rest. -/
theorem settle_spec (e : Engine) {m : Message} (hs : m.status = .sending) {channel : Channel}
    (hchannel : channel.id = m.channelId) (hget : ∃ spec, e.spec? m.channelId = some spec)
    (attemptedAt : Instant) (report : Report) (now : Instant) :
    ∃ m' t, e.Recorded channel.spec attemptedAt now report m m' t
      (e.settle m channel attemptedAt report true now) := by
  unfold settle
  rw [hchannel]
  cases hr : report.result with
  | ok receipt =>
    obtain ⟨m', a, hm', hn, hat, ho, hd, heq⟩ :=
      e.settleDelivered_eq hs (attemptOf m attemptedAt report) receipt now
    have hsettles : m.Settles channel.spec attemptedAt now report m' none :=
      hm' ▸ .delivered hr ⟨hn, hat⟩ ho hd
    simp only [heq]
    refine ⟨m', none, hsettles, ?_, fun w => ?_⟩
    · rw [withRecord_none]
      exact alike_mark _ m' _ _ now
    · rw [← hsettles.sameOrigin.channelId] at hget
      rw [tally_mark (e.putMessage m') hget]
      -- The tally takes the latency from the message, whose last attempt has it from the report.
      have hlatency : m'.lastLatencyMs = a.latencyMs := by
        simp only [Message.lastLatencyMs, Message.lastAttempt?, hm', List.getLast?_concat,
          Option.map_some, Option.getD_some]
      rw [← hlatency]
      simp only [View.bump, Happening.milestone?, hm', Milestone.ofStatus?, Option.map_some]
      rfl
  | error error =>
    simp only [Bool.true_and]
    generalize ha : ({ attemptOf m attemptedAt report with
      responseCode := error.status?, error := some error.message } : Attempt) = a
    have hfollows : a.Follows m attemptedAt := by subst ha; exact ⟨rfl, rfl⟩
    have herror : a.error = some error.message := by subst ha; rfl
    have hdelay : a.retryDelayMs = none := by subst ha; rfl
    have hnumber : (attemptOf m attemptedAt report).number = a.number := by subst ha; rfl
    rw [hnumber]
    -- To blame the channel changes nothing that messages depend on, and counts nothing.
    have hblame := e.alike_blame m.channelId error
    have htally := e.tally_blame m.channelId error
    generalize e.blame m.channelId error = e₁ at hblame htally
    split
    · next hretry =>
      rw [Bool.and_eq_true] at hretry
      rw [e₁.settleRetry_eq hs]
      have hsettles : m.Settles channel.spec attemptedAt now report _ _ :=
        .retried
          (a := { a with
            outcome := .retry
            retryDelayMs := some (channel.spec.retryPolicy.delayFor a.number) })
          hr ⟨hfollows.number, hfollows.attemptedAt⟩ rfl rfl hretry.1 hretry.2
      refine ⟨_, _, hsettles, hblame.withRecord _ _, fun w => ?_⟩
      refine (htally w).trans ?_
      simp only [View.bump, Happening.milestone?, Milestone.ofStatus?, Option.map_none]
    · next hretry =>
      rw [Bool.and_eq_true] at hretry
      obtain ⟨m', hm', heq⟩ := e₁.settleFailed_eq hs a now
      have hsettles : m.Settles channel.spec attemptedAt now report m' none :=
        hm' ▸ .failed (a := { a with outcome := .failed }) hr
          ⟨hfollows.number, hfollows.attemptedAt⟩ rfl hdelay herror hretry
      rw [heq]
      refine ⟨m', none, hsettles, (hblame.withRecord m' none).trans ?_, fun w => ?_⟩
      · rw [withRecord_none]
        exact alike_mark _ m' _ _ now
      · -- The channel is still found behind the blame, so that the failure is counted for it.
        rw [← hblame.spec?, ← hsettles.sameOrigin.channelId] at hget
        rw [tally_mark (e₁.putMessage m') hget]
        simp only [View.bump, Happening.milestone?, hm', Milestone.ofStatus?, Option.map_some,
          ← htally w]
        rfl

/-- `record` settles the message that is stored, with the content that is new. -/
theorem record_spec (e : Engine) {m : Message} (hm : e.message? m.id = some m)
    (hs : m.status = .sending) {channel : Channel} (hchannel : channel.id = m.channelId)
    (hget : ∃ spec, e.spec? m.channelId = some spec) (attemptedAt : Instant)
    (content : Option RenderedContent) (report : Report) (now : Instant) :
    ∃ m' t, e.Recorded channel.spec attemptedAt now report (withNewContent m content) m' t
      (e.record m.id channel attemptedAt content report true now) := by
  have hsame := m.sameOrigin_withNewContent content
  have hstatus : (withNewContent m content).status = .sending := by cases content <;> exact hs
  rw [← hsame.channelId] at hchannel hget
  obtain ⟨m', t, hset, halike, htally⟩ :=
    (e.putMessage (withNewContent m content)).settle_spec hstatus hchannel hget attemptedAt
      report now
  have hid : (withNewContent m content).id = m'.id := hset.sameOrigin.id.symm
  -- The message with its new content is replaced by its record, and only the record stays.
  have hput : (e.putMessage (withNewContent m content)).withRecord m' t = e.withRecord m' t := by
    unfold withRecord
    rw [putMessage_putMessage e hid]
    rfl
  rw [hput] at halike
  unfold record
  rw [hm]
  exact ⟨m', t, hset, halike, htally⟩

/-- The attempt at a claimed message with a route makes a call, or the limit of the channel refuses
it and that is recorded at once. -/
theorem attempt_spec (e : Engine) {m : Message} (hm : e.message? m.id = some m)
    (hs : m.status = .sending) (hr : e.Routes m) (attemptedAt now : Instant) :
    (∃ call e₁, call.IsFor e m attemptedAt ∧ e.Alike e₁ ∧
      (∀ w, e₁.tally w = w.bump (e.tally w) (.begun m)) ∧
      e.attempt m attemptedAt now = (e₁.moveFlight m.id (.calling call), some call)) ∨
    (∃ spec content rendered m' t e₁ e₂, e.spec? m.channelId = some spec ∧
      e.contentOf m = .ok (content, rendered) ∧ e.Alike e₁ ∧
      (∀ w, e₁.tally w = w.bump (e.tally w) (.begun m)) ∧
      e₁.Recorded spec attemptedAt now ⟨.error (.rateLimited m.channelId), 0⟩
        (withNewContent m rendered) m' t e₂ ∧
      e.attempt m attemptedAt now = (e₂.land m.id, none)) := by
  obtain ⟨spec, hspec⟩ := hr.channel
  obtain ⟨channel, hget, rfl, hid⟩ := get?_of_spec? hspec
  obtain ⟨content, rendered, hcontent⟩ := hr.contentOf
  have hcount := e.alike_countFirst m attemptedAt
  have hacquire := hcount.trans (alike_modifyChannel _ m.channelId
    fun c => spec_tryAcquire c attemptedAt)
  -- The limiter counts refusals of its own, which no tally of messages shows.
  have htally : ∀ w, ((e.countFirst m m.channelId attemptedAt).modifyChannel m.channelId
      fun c => (c.tryAcquire attemptedAt).1).tally w = w.bump (e.tally w) (.begun m) := fun w =>
    (tally_modifyChannel _ _ (fun c => spec_tryAcquire c attemptedAt)
      (fun c => counters_tryAcquire c attemptedAt) w).trans
        (e.tally_countFirst hr.channel attemptedAt w)
  unfold attempt
  simp only [hget, hid, contentOf_congr hcount.templates, hcontent]
  generalize (e.countFirst m m.channelId attemptedAt).modifyChannel m.channelId
    (fun c => (c.tryAcquire attemptedAt).1) = e₁ at hacquire htally
  split
  · exact .inl ⟨_, e₁, ⟨rfl, rfl, content, hcontent, rfl⟩, hacquire, htally, rfl⟩
  · right
    -- The limiter refuses, and the message is still there for the record.
    have hm₁ : e₁.message? m.id = some m := (hacquire.agrees m.id).message.trans hm
    have hget₁ : ∃ spec, e₁.spec? m.channelId = some spec :=
      ⟨channel.spec, (hacquire.spec? m.channelId).trans hspec⟩
    obtain ⟨m', t, hrecorded⟩ := e₁.record_spec hm₁ hs hid hget₁ attemptedAt rendered
      ⟨.error (.rateLimited m.channelId), 0⟩ now
    exact ⟨channel.spec, content, rendered, m', t, e₁, _, hspec, rfl, hacquire, htally,
      hrecorded, rfl⟩

/-- The end of a call for a message that is being sent is recorded. -/
theorem complete_spec (e : Engine) {m : Message} {call : Call} (hm : e.message? m.id = some m)
    (hs : m.status = .sending) (hr : e.Routes m) (hcall : e.callOf? m.id = some call)
    (hc : call.channelId = m.channelId) (report : Report) (now : Instant) :
    ∃ spec m' t e₁, e.spec? m.channelId = some spec ∧
      e.Recorded spec call.attemptedAt now report (withNewContent m call.rendered) m' t e₁ ∧
      e.complete m.id report now = e₁.land m.id := by
  obtain ⟨spec, hspec⟩ := hr.channel
  obtain ⟨channel, hget, rfl, hid⟩ := get?_of_spec? hspec
  obtain ⟨m', t, hrecorded⟩ :=
    e.record_spec hm hs hid hr.channel call.attemptedAt call.rendered report now
  unfold complete
  simp only [hcall, hc, hget]
  exact ⟨channel.spec, m', t, _, hspec, hrecorded, rfl⟩

end Engine

end Klaxon
