import Klaxon.Proofs.Dispatch.Runs

/-!
# The engine without some messages

`Engine.without` takes messages out of an engine and leaves everything else where it is: their ids
may still stand in lanes and wait behind timers. Most of what an engine does looks at no message, or
at one only; so it does the same whether or not other messages are there, and leaves two engines
that differ in the same messages. The lemmas `…_without` say so of each function of the engine: of a
request if the id of the next message is not among those that are taken out, and of the record of an
attempt, of a call and of a cancellation if the id of their message is not.
-/

namespace Klaxon

namespace Engine

/-- The engine without the messages of some ids. -/
def without (e : Engine) (gone : List String) : Engine :=
  { e with messages := e.messages.filter fun m => decide (m.id ∉ gone) }

section Without

variable (e : Engine) (gone : List String)

/-- Where no message is taken out, the engine stays as it is. -/
theorem without_nil : e.without [] = e := by
  have hall : (e.messages.filter fun m => decide (m.id ∉ ([] : List String))) = e.messages := by
    simp
  unfold without
  rw [hall]

/-- To take out some messages and then others is to take out all of them. -/
theorem without_without (more : List String) :
    (e.without gone).without more = e.without (gone ++ more) := by
  unfold without
  rw [List.filter_filter]
  congr 1
  refine List.filter_congr fun m _ => ?_
  simp [List.mem_append, not_or, Bool.and_comm]

/-- A message that is not taken away is found as before. -/
theorem message?_without {gone : List String} {id : String} (h : id ∉ gone) :
    (e.without gone).message? id = e.message? id := by
  unfold message? without
  -- The message that is looked for passes the filter, and no other one is looked for.
  rw [List.find?_filter]
  congr 1
  funext m
  by_cases hm : m.id = id
  · simp [hm, h]
  · simp [hm]

/-- A message that is taken away is not found. -/
theorem message?_without_of_mem {gone : List String} {id : String} (h : id ∈ gone) :
    (e.without gone).message? id = none := by
  unfold message? without
  rw [List.find?_filter, List.find?_eq_none]
  intro m _ hm
  obtain ⟨hkept, hid⟩ : m.id ∉ gone ∧ m.id = id := by simpa using hm
  exact hkept (hid ▸ h)

/-- A message is changed under the same ids as before. -/
theorem putMessage_without (m : Message) :
    (e.without gone).putMessage m = (e.putMessage m).without gone := by
  unfold putMessage without
  simp only [List.filter_map]
  congr 2
  refine List.filter_congr fun x _ => ?_
  -- A message is replaced by one of the same id, so both sides keep the same places.
  by_cases hx : x.id = m.id
  · simp [hx]
  · simp [hx]

/-! ## The work on a message -/

/-- An error is charged to its channel as before. -/
theorem blame_without (channelId : String) (error : DispatchError) :
    (e.without gone).blame channelId error = (e.blame channelId error).without gone := by
  unfold blame
  split
  · rfl
  · rfl

/-- A first attempt is counted as before. -/
theorem countFirst_without (m : Message) (channelId : String) (now : Instant) :
    (e.without gone).countFirst m channelId now = (e.countFirst m channelId now).without gone := by
  unfold countFirst
  split
  · rfl
  · rfl

/-- A delivery is settled as before. -/
theorem settleDelivered_without (m : Message) (channelId : String) (a : Attempt)
    (receipt : Receipt) (now : Instant) :
    (e.without gone).settleDelivered m channelId a receipt now =
      (e.settleDelivered m channelId a receipt now).without gone := by
  unfold settleDelivered
  simp only
  split
  · rfl
  · rw [putMessage_without]
    rfl

/-- A failed attempt that is to be retried is settled as before. -/
theorem settleRetry_without (m : Message) (a : Attempt) (delayMs : UInt64) (now : Instant) :
    (e.without gone).settleRetry m a delayMs now =
      (e.settleRetry m a delayMs now).without gone := by
  unfold settleRetry
  simp only
  split
  · rfl
  · rw [putMessage_without]
    rfl

/-- A failure for good is settled as before. -/
theorem settleFailed_without (m : Message) (channelId : String) (a : Attempt) (now : Instant) :
    (e.without gone).settleFailed m channelId a now =
      (e.settleFailed m channelId a now).without gone := by
  unfold settleFailed
  split
  · rfl
  · rw [putMessage_without]
    rfl

/-- The end of an attempt is settled as before, whatever it was. -/
theorem settle_without (m : Message) (channel : Channel) (attemptedAt : Instant)
    (report : Report) (retryable : Bool) (now : Instant) :
    (e.without gone).settle m channel attemptedAt report retryable now =
      (e.settle m channel attemptedAt report retryable now).without gone := by
  unfold settle
  simp only
  split
  · exact settleDelivered_without e gone m channel.id _ _ now
  · next error _ =>
    rw [blame_without]
    split
    · exact settleRetry_without _ gone m _ _ now
    · exact settleFailed_without _ gone m channel.id _ now

/-- An attempt over a channel that is not there is settled as before. -/
theorem settleOrphan_without (m : Message) (attemptedAt now : Instant) :
    (e.without gone).settleOrphan m attemptedAt now =
      (e.settleOrphan m attemptedAt now).without gone := by
  unfold settleOrphan
  simp only
  split
  · rfl
  · rw [putMessage_without]
    rfl

variable {gone}

/-- The end of an attempt at a message that is there is recorded as before. -/
theorem record_without {id : String} (h : id ∉ gone) (channel : Channel) (attemptedAt : Instant)
    (content : Option RenderedContent) (report : Report) (retryable : Bool) (now : Instant) :
    (e.without gone).record id channel attemptedAt content report retryable now =
      (e.record id channel attemptedAt content report retryable now).without gone := by
  unfold record
  rw [e.message?_without h]
  split
  · rfl
  · simp only [putMessage_without]
    exact settle_without _ gone _ channel attemptedAt report retryable now

/-- An attempt over a channel that is not there is recorded as before, for a message that is there.
-/
theorem recordOrphan_without {id : String} (h : id ∉ gone) (attemptedAt now : Instant) :
    (e.without gone).recordOrphan id attemptedAt now =
      (e.recordOrphan id attemptedAt now).without gone := by
  unfold recordOrphan
  rw [e.message?_without h]
  split
  · rfl
  · exact settleOrphan_without e gone _ attemptedAt now

/-- The attempt at a message that is there goes as before, and gives the same call. -/
theorem attempt_without {m : Message} (h : m.id ∉ gone) (attemptedAt now : Instant) :
    (e.without gone).attempt m attemptedAt now =
      ((e.attempt m attemptedAt now).1.without gone, (e.attempt m attemptedAt now).2) := by
  unfold attempt
  have hregistry : (e.without gone).registry = e.registry := rfl
  rw [hregistry]
  split
  · -- There is no channel.
    rw [recordOrphan_without e h]
    rfl
  · next channel _ =>
    simp only [countFirst_without]
    have hcontent : ((e.countFirst m channel.id attemptedAt).without gone).contentOf m =
        (e.countFirst m channel.id attemptedAt).contentOf m := rfl
    rw [hcontent]
    split
    · -- The message cannot be rendered, which is recorded.
      rw [record_without _ h]
      rfl
    · next content rendered _ =>
      split
      · rfl
      · -- The rate limit refuses the call, and the refusal is recorded.
        have hrecord := record_without ((e.countFirst m channel.id attemptedAt).modifyChannel
          channel.id fun c => (c.tryAcquire attemptedAt).1) h channel attemptedAt rendered
          ⟨.error (.rateLimited channel.id), 0⟩ true now
        exact congrArg (fun after : Engine => (after.land m.id, none)) hrecord

/-- The answer to a call for a message that is there is taken as before. -/
theorem complete_without {id : String} (h : id ∉ gone) (report : Report) (now : Instant) :
    (e.without gone).complete id report now = (e.complete id report now).without gone := by
  unfold complete
  have hcall : (e.without gone).callOf? id = e.callOf? id := rfl
  have hregistry : (e.without gone).registry = e.registry := rfl
  rw [hcall, hregistry]
  split
  · rfl
  · split
    · rfl
    · -- There is a call and its channel, and its end is recorded.
      rw [record_without e h]
      rfl

/-- The end of an attempt at a message that is there is seen as before. -/
theorem recorded_without {id : String} (h : id ∉ gone) (now : Instant) :
    (e.without gone).recorded id now = e.recorded id now := by
  unfold recorded
  rw [e.message?_without h]

/-- A new message stays, as its id is not among those that are gone. -/
theorem accept_without (h : e.nextId ∉ gone) (d : Draft) (now : Instant) :
    (e.without gone).accept d now = ((e.accept d now).1.without gone, (e.accept d now).2) := by
  have hstored : ({ e with
      messages := e.messages ++ [d.toMessage e.nextId now], made := e.made + 1 } : Engine).without
        gone = { e.without gone with
      messages := (e.without gone).messages ++ [d.toMessage e.nextId now],
      made := e.made + 1 } := by
    unfold without
    rw [List.filter_append]
    congr 2
    simpa [Draft.toMessage] using h
  unfold accept
  by_cases hlater : now < d.scheduledAt
  · simp only [hlater, if_true]
    exact congrArg (fun stored : Engine => ({ stored with
      timers := stored.timers ++ [(⟨e.nextId, d.priority, d.scheduledAt⟩ : Timer)] },
      d.toMessage e.nextId now)) hstored.symm
  · simp only [hlater, if_false]
    exact congrArg (fun stored : Engine => ({ stored with
      lanes := stored.lanes.push d.priority e.nextId }, d.toMessage e.nextId now)) hstored.symm

/-- A draft becomes a message as before, if its id is not among those that are gone. -/
theorem submit_without (h : e.nextId ∉ gone) (draft : Except DispatchError Draft)
    (now : Instant) :
    (e.without gone).submit draft now =
      ((e.submit draft now).1.without gone, (e.submit draft now).2) := by
  unfold submit
  cases draft with
  | error => rfl
  | ok d =>
    simp only
    rw [accept_without e h]

/-- A request for a message of one's own is served as before. -/
theorem sendCustom_without (h : e.nextId ∉ gone) (recipientId channelId templateId : String)
    (context : Json) (priority : Priority) (now : Instant) :
    (e.without gone).sendCustom recipientId channelId templateId context priority now =
      ((e.sendCustom recipientId channelId templateId context priority now).1.without gone,
        (e.sendCustom recipientId channelId templateId context priority now).2) :=
  submit_without e h (e.customDraft recipientId channelId templateId context priority now) now

/-- A request for a call of a webhook is served as before. -/
theorem sendWebhook_without (h : e.nextId ∉ gone) (alert : Alert) (channelId : String)
    (url : Option String) (now : Instant) :
    (e.without gone).sendWebhook alert channelId url now =
      ((e.sendWebhook alert channelId url now).1.without gone,
        (e.sendWebhook alert channelId url now).2) :=
  submit_without e h (e.webhookDraft alert channelId url now) now

/-- An alert goes to a recipient over one type of channel as before. -/
theorem notifyOver_without (h : e.nextId ∉ gone) (alert : Alert) (recipient : Recipient)
    (priority : Priority) (now : Instant) (channelType : ChannelType) :
    (e.without gone).notifyOver alert recipient priority now channelType =
      ((e.notifyOver alert recipient priority now channelType).1.without gone,
        (e.notifyOver alert recipient priority now channelType).2) := by
  unfold notifyOver
  have hroute : (e.without gone).routeFor? recipient priority channelType =
      e.routeFor? recipient priority channelType := rfl
  have hslots : (e.without gone).slots = e.slots := rfl
  have hpolicy : (e.without gone).policy = e.policy := rfl
  rw [hroute, hslots, hpolicy]
  split
  · rfl
  · split
    · rfl
    · next slots scheduledAt _ =>
      have hnext : ({ e with slots } : Engine).nextId ∉ gone := h
      -- What is accepted is the same draft, under the id that is next in both engines.
      have haccept := fun d => accept_without ({ e with slots } : Engine) hnext d now
      exact congrArg (fun p : Engine × Message => (p.1, [p.2])) (haccept _)

/-- The cancellation of a message that is not taken out. -/
theorem cancel_without {id : String} (h : id ∉ gone) :
    (e.without gone).cancel id = ((e.cancel id).1.without gone, (e.cancel id).2) := by
  unfold cancel
  rw [e.message?_without h]
  split
  · rfl
  · split
    · rfl
    · rw [putMessage_without]
      rfl

end Without

end Engine

end Klaxon
