import Klaxon.Proofs.Dispatch.Runs

/-!
# What turns leave alone

The work on a message, from its claim to the record of its attempt, leaves the directory, the
policy, the slots and the lanes as they are, makes no message, suppresses none, and takes no timer
away (`Undisturbed`). Over all turns, the policy stays, slots are only taken where an alert is
offered, messages are only made and suppressed by requests, and a timer ends only by firing
(`turn_leaves`). Only few kinds of turns touch the channels or the recent milestones
(`turn_unrecorded`).
-/

namespace Klaxon

/-- Whether a turn may change a channel, record a milestone or drop old ones. -/
def Turn.mayRecord : Turn → Bool
  | .attempt _ | .complete .. | .report | .markUnhealthy _ | .restore _ => true
  | _ => false

namespace Engine

/-- What the work on a message leaves alone. -/
structure Undisturbed (e e' : Engine) : Prop where
  directory : e'.directory = e.directory
  policy : e'.policy = e.policy
  idSupply : e'.idSupply = e.idSupply
  slots : e'.slots = e.slots
  made : e'.made = e.made
  suppressed : e'.statistics.suppressed = e.statistics.suppressed
  lanes : e'.lanes = e.lanes
  timers : ∀ t ∈ e.timers, t ∈ e'.timers

namespace Undisturbed

/-- Nothing done leaves everything alone. -/
theorem refl (e : Engine) : e.Undisturbed e := ⟨rfl, rfl, rfl, rfl, rfl, rfl, rfl, fun _ ht => ht⟩

/-- Two things that leave all this alone do so one after the other. -/
theorem trans {a b c : Engine} (hab : a.Undisturbed b) (hbc : b.Undisturbed c) :
    a.Undisturbed c :=
  ⟨hbc.directory.trans hab.directory, hbc.policy.trans hab.policy,
    hbc.idSupply.trans hab.idSupply, hbc.slots.trans hab.slots, hbc.made.trans hab.made,
    hbc.suppressed.trans hab.suppressed, hbc.lanes.trans hab.lanes,
    fun t ht => hbc.timers t (hab.timers t ht)⟩

end Undisturbed

/-! ## The work on a message -/

variable (e : Engine)

/-- Storing a message leaves alone what the work on it does. -/
theorem undisturbed_putMessage (m : Message) : e.Undisturbed (e.putMessage m) :=
  ⟨rfl, rfl, rfl, rfl, rfl, rfl, rfl, fun _ ht => ht⟩

/-- Changing a channel leaves the rest of the engine alone. -/
theorem undisturbed_modifyChannel (id : String) (change : Channel → Channel) :
    e.Undisturbed (e.modifyChannel id change) :=
  ⟨rfl, rfl, rfl, rfl, rfl, rfl, rfl, fun _ ht => ht⟩

/-- New statistics leave the rest alone if they suppress no more. -/
theorem undisturbed_statistics {statistics : Statistics}
    (h : statistics.suppressed = e.statistics.suppressed) : e.Undisturbed { e with statistics } :=
  ⟨rfl, rfl, rfl, rfl, rfl, h, rfl, fun _ ht => ht⟩

/-- Ending a flight leaves lanes and timers alone. -/
theorem undisturbed_land (id : String) : e.Undisturbed (e.land id) :=
  ⟨rfl, rfl, rfl, rfl, rfl, rfl, rfl, fun _ ht => ht⟩

/-- Moving a flight on leaves lanes and timers alone. -/
theorem undisturbed_moveFlight (id : String) (s : Stage) :
    e.Undisturbed (e.moveFlight id s) :=
  ⟨rfl, rfl, rfl, rfl, rfl, rfl, rfl, fun _ ht => ht⟩

/-- A new timer is put beside the others. -/
theorem undisturbed_schedule (id : String) (p : Priority) (due : Instant) :
    e.Undisturbed (e.schedule id p due) :=
  ⟨rfl, rfl, rfl, rfl, rfl, rfl, rfl, fun _ ht => List.mem_append_left _ ht⟩

/-- Counting a failure against a channel leaves the rest alone. -/
theorem undisturbed_blame (channelId : String) (error : DispatchError) :
    e.Undisturbed (e.blame channelId error) := by
  unfold blame
  split
  · exact e.undisturbed_modifyChannel channelId _
  · exact .refl e

/-- Counting a first attempt leaves the rest alone. -/
theorem undisturbed_countFirst (m : Message) (channelId : String) (now : Instant) :
    e.Undisturbed (e.countFirst m channelId now) := by
  unfold countFirst
  split
  · exact (e.undisturbed_modifyChannel channelId _).trans (undisturbed_statistics _ rfl)
  · exact .refl e

/-- Recording a delivery disturbs nothing. -/
theorem undisturbed_settleDelivered (m : Message) (channelId : String) (a : Attempt)
    (receipt : Receipt) (now : Instant) :
    e.Undisturbed (e.settleDelivered m channelId a receipt now) := by
  unfold settleDelivered
  simp only
  split
  · exact .refl e
  · next m' _ =>
    exact ((e.undisturbed_putMessage m').trans (undisturbed_modifyChannel _ channelId _)).trans
      (undisturbed_statistics _ rfl)

/-- Recording an attempt that is to be retried disturbs nothing. -/
theorem undisturbed_settleRetry (m : Message) (a : Attempt) (delayMs : UInt64) (now : Instant) :
    e.Undisturbed (e.settleRetry m a delayMs now) := by
  unfold settleRetry
  simp only
  split
  · exact .refl e
  · next m' _ => exact (e.undisturbed_putMessage m').trans (undisturbed_schedule _ _ _ _)

/-- Recording a failure disturbs nothing. -/
theorem undisturbed_settleFailed (m : Message) (channelId : String) (a : Attempt)
    (now : Instant) : e.Undisturbed (e.settleFailed m channelId a now) := by
  unfold settleFailed
  split
  · exact .refl e
  · next m' _ =>
    exact ((e.undisturbed_putMessage m').trans (undisturbed_modifyChannel _ channelId _)).trans
      (undisturbed_statistics _ rfl)

/-- However an attempt ends, its record disturbs nothing. -/
theorem undisturbed_settle (m : Message) (channel : Channel) (attemptedAt : Instant)
    (report : Report) (retryable : Bool) (now : Instant) :
    e.Undisturbed (e.settle m channel attemptedAt report retryable now) := by
  unfold settle
  simp only
  split
  · exact e.undisturbed_settleDelivered m _ _ _ now
  · next error _ =>
    -- An error is counted against the channel first, and then retried or given up.
    refine (e.undisturbed_blame channel.id error).trans ?_
    split
    · exact undisturbed_settleRetry _ m _ _ now
    · exact undisturbed_settleFailed _ m _ _ now

/-- Recording an attempt disturbs nothing, whether or not its message is stored still. -/
theorem undisturbed_record (id : String) (channel : Channel) (attemptedAt : Instant)
    (content : Option RenderedContent) (report : Report) (retryable : Bool) (now : Instant) :
    e.Undisturbed (e.record id channel attemptedAt content report retryable now) := by
  unfold record
  split
  · exact .refl e
  · next m _ =>
    exact (e.undisturbed_putMessage (withNewContent m content)).trans
      (undisturbed_settle _ _ channel attemptedAt report retryable now)

/-- Neither does the record of an attempt whose channel is gone. -/
theorem undisturbed_recordOrphan (id : String) (attemptedAt now : Instant) :
    e.Undisturbed (e.recordOrphan id attemptedAt now) := by
  unfold recordOrphan
  split
  · exact .refl e
  · unfold settleOrphan
    simp only
    split
    · exact .refl e
    · next failed _ =>
      refine (e.undisturbed_putMessage failed).trans (undisturbed_statistics _ ?_)
      split <;> rfl

/-- The claim of a message disturbs nothing. -/
theorem undisturbed_claim (id : String) (now : Instant) : e.Undisturbed (e.claim id now) := by
  unfold claim
  split
  · exact e.undisturbed_land id
  · split
    · exact e.undisturbed_land id
    · next m _ => exact (e.undisturbed_putMessage m).trans (undisturbed_moveFlight _ id _)

/-- The attempt at a message disturbs nothing, whichever of its exits is taken. -/
theorem undisturbed_attempt (m : Message) (attemptedAt now : Instant) :
    e.Undisturbed (e.attempt m attemptedAt now).1 := by
  unfold attempt
  split
  · exact (e.undisturbed_recordOrphan m.id attemptedAt now).trans (undisturbed_land _ m.id)
  · next channel _ =>
    -- The four exits share their beginning: the first attempt is counted, then the limiter is
    -- asked.
    have hcount := e.undisturbed_countFirst m channel.id attemptedAt
    simp only
    split
    · exact (hcount.trans (undisturbed_record _ _ _ _ _ _ _ _)).trans (undisturbed_land _ m.id)
    · have hacquire := hcount.trans (undisturbed_modifyChannel _ channel.id
        fun c => (c.tryAcquire attemptedAt).1)
      split
      · exact hacquire.trans (undisturbed_moveFlight _ m.id _)
      · exact (hacquire.trans (undisturbed_record _ _ _ _ _ _ _ _)).trans
          (undisturbed_land _ m.id)

/-- To take up an id disturbs nothing. -/
theorem undisturbed_takeUp (id : String) (now : Instant) :
    e.Undisturbed (e.takeUp id now).1 := by
  have hclaim := e.undisturbed_claim id now
  unfold takeUp
  simp only
  split
  · exact hclaim.trans (undisturbed_attempt _ _ _ now)
  · exact hclaim

/-- The end of a call disturbs nothing. -/
theorem undisturbed_complete (id : String) (report : Report) (now : Instant) :
    e.Undisturbed (e.complete id report now) := by
  unfold complete
  split
  · exact .refl e
  · split
    · exact e.undisturbed_land id
    · exact (e.undisturbed_record id _ _ _ _ _ now).trans (undisturbed_land _ id)

/-! ## Turns -/

/-- What every turn leaves alone, or every turn but those of one kind. -/
structure Leaves (e : Engine) (t : Turn) (e' : Engine) : Prop where
  directory : (∀ d, t ≠ .setDirectory d) → e'.directory = e.directory
  policy : e'.policy = e.policy
  idSupply : e'.idSupply = e.idSupply
  /-- Slots are taken where an alert is offered. -/
  slots : t.recipient? = none → e'.slots = e.slots
  /-- Messages are made by requests. -/
  made : t.isRequest = false → e'.made = e.made
  /-- Messages are suppressed by requests. -/
  suppressed : t.isRequest = false → e'.statistics.suppressed = e.statistics.suppressed
  /-- A timer ends by firing. -/
  timers : ∀ timer ∈ e.timers, t ≠ .fire timer → timer ∈ e'.timers

/-- What disturbs nothing leaves alone what any turn has to. -/
theorem Undisturbed.leaves {e e' : Engine} (h : e.Undisturbed e') (t : Turn) : e.Leaves t e' :=
  ⟨fun _ => h.directory, h.policy, h.idSupply, fun _ => h.slots, fun _ => h.made,
    fun _ => h.suppressed, fun timer ht _ => h.timers timer ht⟩

/-- An accepted message takes no timer away. -/
theorem leaves_accept (d : Draft) (now : Instant) {t : Turn} (ht : t.isRequest = true) :
    e.Leaves t (e.accept d now).1 := by
  have hno : t.isRequest ≠ false := by simp [ht]
  unfold accept
  simp only
  split
  · exact ⟨fun _ => rfl, rfl, rfl, fun _ => rfl, fun h => absurd h hno, fun _ => rfl,
      fun _ ht _ => List.mem_append_left _ ht⟩
  · exact ⟨fun _ => rfl, rfl, rfl, fun _ => rfl, fun h => absurd h hno, fun _ => rfl,
      fun _ ht _ => ht⟩

/-- A request that may be refused takes no timer away, either. -/
theorem leaves_submit (draft : Except DispatchError Draft) (now : Instant) {t : Turn}
    (ht : t.isRequest = true) : e.Leaves t (e.submit draft now).1 := by
  unfold submit
  split
  · exact (Undisturbed.refl e).leaves t
  · exact e.leaves_accept _ now ht

/-- An offer may take a slot, and then makes a message; its timers stay. -/
theorem leaves_offer (now : Instant) (alert : Alert) (recipient : Recipient)
    (priority : Priority) (channelType : ChannelType) :
    e.Leaves (.offer alert recipient priority channelType)
      (e.turn now (.offer alert recipient priority channelType)) := by
  simp only [turn, notifyOver]
  split
  · exact (Undisturbed.refl e).leaves _
  · split
    · exact ⟨fun _ => rfl, rfl, rfl, fun h => by simp [Turn.recipient?] at h,
        fun h => by simp [Turn.isRequest] at h, fun h => by simp [Turn.isRequest] at h,
        fun _ ht _ => ht⟩
    · next slots _ _ =>
      -- The draft is accepted in an engine with the new slots, which no clause but that of slots
      -- sees.
      have h := fun d => { e with slots }.leaves_accept d now (t := .holdBack) rfl
      exact ⟨fun _ => (h _).directory (by simp), (h _).policy, (h _).idSupply,
        fun hr => by simp [Turn.recipient?] at hr, fun hr => by simp [Turn.isRequest] at hr,
        fun hr => by simp [Turn.isRequest] at hr,
        fun timer ht _ => (h _).timers timer ht (by simp)⟩

/-- To cancel a message disturbs nothing. -/
theorem undisturbed_cancel (id : String) : e.Undisturbed (e.cancel id).1 := by
  unfold cancel
  split
  · exact .refl e
  · split
    · exact .refl e
    · next m _ => exact (e.undisturbed_putMessage m).trans (undisturbed_statistics _ rfl)

/-- Every turn leaves alone what only others may change. -/
theorem turn_leaves (now : Instant) (t : Turn) : e.Leaves t (e.turn now t) := by
  cases t with
  | offer alert recipient priority channelType =>
    exact e.leaves_offer now alert recipient priority channelType
  | holdBack =>
    exact ⟨fun _ => rfl, rfl, rfl, fun _ => rfl, fun _ => rfl,
      fun h => by simp [Turn.isRequest] at h, fun _ ht _ => ht⟩
  | sendCustom recipientId channelId templateId context priority =>
    exact e.leaves_submit _ now rfl
  | sendWebhook alert channelId url => exact e.leaves_submit _ now rfl
  | cancel id => exact (e.undisturbed_cancel id).leaves _
  | prune before =>
    exact ⟨fun _ => rfl, rfl, rfl, fun _ => rfl, fun _ => rfl, fun _ => rfl, fun _ ht _ => ht⟩
  | pull p =>
    exact ⟨fun _ => rfl, rfl, rfl, fun _ => rfl, fun _ => rfl, fun _ => rfl, fun _ ht _ => ht⟩
  | claim id =>
    simp only [turn]
    split
    · exact (e.undisturbed_claim id now).leaves _
    · exact (Undisturbed.refl e).leaves _
  | attempt id =>
    simp only [turn]
    split
    · exact (e.undisturbed_attempt _ _ now).leaves _
    · exact (Undisturbed.refl e).leaves _
  | complete id report => exact (e.undisturbed_complete id report now).leaves _
  | fire timer =>
    simp only [turn]
    split
    · -- The timer that fires is the only one that ends.
      have htimers : ∀ u ∈ e.timers, Turn.fire timer ≠ .fire u → u ∈ e.timers.erase timer :=
        fun u hu hne =>
          (List.mem_erase_of_ne fun h => hne (congrArg Turn.fire h.symm)).mpr hu
      unfold fire requeue
      split
      · split
        · exact ⟨fun _ => rfl, rfl, rfl, fun _ => rfl, fun _ => rfl, fun _ => rfl, htimers⟩
        · exact ⟨fun _ => rfl, rfl, rfl, fun _ => rfl, fun _ => rfl, fun _ => rfl, htimers⟩
      · exact ⟨fun _ => rfl, rfl, rfl, fun _ => rfl, fun _ => rfl, fun _ => rfl, htimers⟩
    · exact (Undisturbed.refl e).leaves _
  | report =>
    have hsuppressed : (e.statistics.prune now).suppressed = e.statistics.suppressed := rfl
    exact (e.undisturbed_statistics hsuppressed).leaves _
  | setDirectory directory =>
    exact ⟨fun h => absurd rfl (h directory), rfl, rfl, fun _ => rfl, fun _ => rfl,
      fun _ => rfl, fun _ ht _ => ht⟩
  | markUnhealthy channelId => exact (e.undisturbed_modifyChannel channelId _).leaves _
  | restore channelId => exact (e.undisturbed_modifyChannel channelId _).leaves _

/-! ## Turns that record nothing -/

/-- The channels and the recent milestones are left alone. -/
structure Unrecorded (e e' : Engine) : Prop where
  registry : e'.registry = e.registry
  recent : e'.statistics.recent = e.statistics.recent

/-- Accepting a draft touches neither the channels nor the recent milestones. -/
theorem unrecorded_accept (d : Draft) (now : Instant) : e.Unrecorded (e.accept d now).1 := by
  unfold accept
  simp only
  split <;> exact ⟨rfl, rfl⟩

/-- Neither does a request that may be refused. -/
theorem unrecorded_submit (draft : Except DispatchError Draft) (now : Instant) :
    e.Unrecorded (e.submit draft now).1 := by
  unfold submit
  split
  · exact ⟨rfl, rfl⟩
  · exact e.unrecorded_accept _ now

/-- Turns that may not record leave the channels and the recent milestones alone. -/
theorem turn_unrecorded (now : Instant) {t : Turn} (ht : t.mayRecord = false) :
    e.Unrecorded (e.turn now t) := by
  cases t with
  | offer alert recipient priority channelType =>
    simp only [turn, notifyOver]
    split
    · exact ⟨rfl, rfl⟩
    · split
      · exact ⟨rfl, rfl⟩
      · next slots _ _ =>
        have h := fun d => { e with slots }.unrecorded_accept d now
        exact ⟨(h _).registry, (h _).recent⟩
  | sendCustom recipientId channelId templateId context priority =>
    exact e.unrecorded_submit _ now
  | sendWebhook alert channelId url => exact e.unrecorded_submit _ now
  | cancel id =>
    simp only [turn, cancel]
    split
    · exact ⟨rfl, rfl⟩
    · split <;> exact ⟨rfl, rfl⟩
  | claim id =>
    simp only [turn, claim]
    split
    · split
      · exact ⟨rfl, rfl⟩
      · split <;> exact ⟨rfl, rfl⟩
    · exact ⟨rfl, rfl⟩
  | fire timer =>
    simp only [turn, fire, requeue]
    split
    · split
      · split <;> exact ⟨rfl, rfl⟩
      · exact ⟨rfl, rfl⟩
    · exact ⟨rfl, rfl⟩
  | holdBack | pull | prune | setDirectory => exact ⟨rfl, rfl⟩
  | attempt | complete | report | markUnhealthy | restore => simp [Turn.mayRecord] at ht

end Engine

end Klaxon
