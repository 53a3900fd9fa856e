import Klaxon.Proofs.Dispatch.Batches

/-!
# What the work on a message depends on

Where the channel of a message has no rate limit, what the steps of its delivery do to it depends on
the message and on how far its delivery is, and on nothing else in the engine that changes. Besides
they count (`CountsOnly`): the tallies go up, and the channel is healthier or less so.

`attempt_eq`, `exists_settled` and `exists_completed` say so of the functions of an attempt: what
they put in the place of the message is found before the engine is, and is the same for every
engine that holds the message.
-/

namespace Klaxon

namespace Channel

/-- What lets requests through a channel: its definition, its limiter and its refusals. -/
def gate (c : Channel) : ChannelSpec × Limiter × UInt64 := (c.spec, c.limiter, c.rateLimited)

/-- Failures do not change what lets requests through. -/
theorem gate_recordAttemptFailure (c : Channel) (n : UInt32) :
    (c.recordAttemptFailure n).1.gate = c.gate := by
  unfold recordAttemptFailure
  simp only
  split <;> rfl

/-- Without a rate limit, a request is granted and not remembered. -/
theorem tryAcquire_of_isUnlimited {c : Channel} (h : c.limiter.limit.isUnlimited = true)
    (now : Instant) : c.tryAcquire now = (c, true) := by
  have hgranted : c.limiter.tryAcquire now = (c.limiter, true) := by
    unfold Limiter.tryAcquire
    rw [if_pos h]
  unfold tryAcquire
  rw [hgranted]

end Channel

namespace Milestone

/-- Neither do milestones. -/
theorem gate_change (k : Milestone) (latencyMs : UInt64) (c : Channel) :
    (k.change latencyMs c).gate = c.gate := by
  cases k <;> rfl

end Milestone

namespace Engine

/-- Two engines that differ at most in their tallies, in their latest milestones and in the health
of their channels. -/
structure CountsOnly (e e' : Engine) : Prop extends Alike e e' where
  gates : e'.registry.map Channel.gate = e.registry.map Channel.gate
  suppressed : e'.statistics.suppressed = e.statistics.suppressed
  cancelled : e'.statistics.cancelled = e.statistics.cancelled

namespace CountsOnly

/-- An engine differs in nothing from itself. -/
theorem refl (e : Engine) : e.CountsOnly e := ⟨.refl e, rfl, rfl, rfl⟩

/-- Two changes that only count are one. -/
theorem trans {a b c : Engine} (hab : a.CountsOnly b) (hbc : b.CountsOnly c) : a.CountsOnly c :=
  ⟨hab.toAlike.trans hbc.toAlike, hbc.gates.trans hab.gates,
    hbc.suppressed.trans hab.suppressed, hbc.cancelled.trans hab.cancelled⟩

end CountsOnly

variable (e : Engine)

/-- A change of channels that lets the same requests through. -/
theorem countsOnly_modifyChannel (id : String) {change : Channel → Channel}
    (hspec : ∀ c, (change c).spec = c.spec)
    (hgate : ∀ c ∈ e.registry, c.id = id → (change c).gate = c.gate) :
    e.CountsOnly (e.modifyChannel id change) := by
  refine ⟨e.alike_modifyChannel id hspec, ?_, rfl, rfl⟩
  unfold modifyChannel Registry.modify
  rw [List.map_map]
  refine List.map_congr_left fun c hc => ?_
  by_cases hid : c.id = id
  · simp only [Function.comp, hid, beq_self_eq_true, if_true]
    exact hgate c hc hid
  · simp [hid]

/-- New statistics only count if they suppress and cancel nothing. -/
theorem countsOnly_statistics {statistics : Statistics}
    (hsuppressed : statistics.suppressed = e.statistics.suppressed)
    (hcancelled : statistics.cancelled = e.statistics.cancelled) :
    e.CountsOnly { e with statistics } :=
  ⟨e.alike_statistics statistics, rfl, hsuppressed, hcancelled⟩

/-- A milestone is only counted. -/
theorem countsOnly_mark (m : Message) (k : Milestone) (latencyMs : UInt64) (now : Instant) :
    e.CountsOnly (e.mark m k latencyMs now) :=
  (e.countsOnly_modifyChannel m.channelId (k.spec_change latencyMs)
    fun c _ _ => k.gate_change latencyMs c).trans (countsOnly_statistics _ rfl rfl)

/-- A failure is only counted against its channel. -/
theorem countsOnly_blame (channelId : String) (error : DispatchError) :
    e.CountsOnly (e.blame channelId error) := by
  unfold blame
  split
  · exact e.countsOnly_modifyChannel channelId (fun c => spec_recordAttemptFailure c _)
      fun c _ _ => c.gate_recordAttemptFailure _
  · exact .refl e

/-- A first attempt is only counted. -/
theorem countsOnly_countFirst (m : Message) (now : Instant) :
    e.CountsOnly (e.countFirst m m.channelId now) := by
  rw [countFirst_eq]
  split
  · exact e.countsOnly_mark m .sent 0 now
  · exact .refl e

/-- The record of a message goes well with what is counted. -/
theorem CountsOnly.withRecord {e e' : Engine} (h : e.CountsOnly e') (m : Message)
    (t : Option Timer) : (e.withRecord m t).CountsOnly (e'.withRecord m t) :=
  ⟨h.toAlike.withRecord m t, h.gates, h.suppressed, h.cancelled⟩

/-! ## The begin of an attempt -/

/-- Whether the channel of the message of an id has no rate limit. -/
def IsUnlimited (id : String) : Prop :=
  ∀ m, e.message? id = some m → ∀ c ∈ e.registry, c.id = m.channelId →
    c.limiter.limit.isUnlimited = true

variable {e}

/-- Where channels let the same requests through, they have the same limits. -/
theorem limit_of_gates {e' : Engine}
    (h : e'.registry.map Channel.gate = e.registry.map Channel.gate) {c' : Channel}
    (hc' : c' ∈ e'.registry) : ∃ c ∈ e.registry, c'.gate = c.gate := by
  have hmem : c'.gate ∈ e.registry.map Channel.gate := h ▸ List.mem_map_of_mem hc'
  obtain ⟨c, hc, hgate⟩ := List.mem_map.mp hmem
  exact ⟨c, hc, hgate.symm⟩

/-- The call for a message is determined by the message and by its content. -/
theorem attempt_eq {m : Message} (hm : e.message? m.id = some m) (hr : e.Routes m)
    (hunlimited : e.IsUnlimited m.id) {content : RenderedContent}
    {rendered : Option RenderedContent} (hcontent : e.contentOf m = .ok (content, rendered))
    (attemptedAt now : Instant) :
    ∃ e₁, e.CountsOnly e₁ ∧
      e.attempt m attemptedAt now =
        (e₁.moveFlight m.id
            (.calling ⟨m.channelId, attemptedAt, rendered, .ofMessage m content⟩),
          some ⟨m.channelId, attemptedAt, rendered, .ofMessage m content⟩) := by
  obtain ⟨spec, hspec⟩ := hr.channel
  obtain ⟨channel, hget, -, hid⟩ := get?_of_spec? hspec
  have hcount := e.countsOnly_countFirst m attemptedAt
  -- The limiter of the channel is left as it is, since it grants everything.
  have hgate : ∀ c ∈ (e.countFirst m m.channelId attemptedAt).registry, c.id = m.channelId →
      (c.tryAcquire attemptedAt).1.gate = c.gate := by
    intro c hc hcid
    obtain ⟨c₀, hc₀, hsame⟩ := limit_of_gates hcount.gates hc
    have hspec₀ : c.spec = c₀.spec := congrArg Prod.fst hsame
    have hlimiter : c.limiter = c₀.limiter := congrArg (fun g => g.2.1) hsame
    have hid₀ : c₀.id = m.channelId := by
      rw [← hcid]
      exact congrArg ChannelSpec.id hspec₀.symm
    have hlimit : c.limiter.limit.isUnlimited = true := by
      rw [hlimiter]
      exact hunlimited m hm c₀ hc₀ hid₀
    rw [Channel.tryAcquire_of_isUnlimited hlimit]
  have hgranted : (channel.tryAcquire attemptedAt).2 = true := by
    rw [Channel.tryAcquire_of_isUnlimited
      (hunlimited m hm channel (List.mem_of_find?_eq_some hget) hid)]
  refine ⟨_, hcount.trans (countsOnly_modifyChannel _ m.channelId
    (fun c => spec_tryAcquire c attemptedAt) hgate), ?_⟩
  unfold attempt
  simp only [hget, hid, contentOf_congr hcount.templates, hcontent, hgranted, if_true]

/-! ## The end of an attempt -/

/-- What the record of an attempt puts in the place of a message that is being sent. -/
theorem exists_settled {spec : ChannelSpec} {m : Message} (hs : m.status = .sending)
    (hid : spec.id = m.channelId) (attemptedAt : Instant) (report : Report) (now : Instant) :
    ∃ m' t, m.SameOrigin m' ∧ (∀ x, t = some x → x.messageId = m'.id) ∧
      ∀ (e : Engine) (channel : Channel), channel.spec = spec →
        (e.withRecord m' t).CountsOnly (e.settle m channel attemptedAt report true now) := by
  unfold settle
  cases hr : report.result with
  | ok receipt =>
    refine ⟨{ m with
        status := .delivered
        attempts := m.attempts ++ [{ attemptOf m attemptedAt report with
          outcome := .success
          responseCode := receipt.responseCode
          responseMessage := receipt.responseMessage.map fun s =>
            Text.truncate s Text.maxKeptBytes }]
        deliveredAt := some now }, none,
      ⟨rfl, rfl, rfl, rfl, rfl, rfl, rfl, rfl, rfl⟩, by simp, ?_⟩
    -- From here on the engine is any; the message and its record are fixed.
    rintro e channel rfl
    have hchannel : channel.id = m.channelId := hid
    simp only [settleDelivered, Message.recordSuccess, Message.moveTo, hs, Status.allows, if_true,
      Except.map, hchannel, withRecord_none]
    exact countsOnly_mark _ _ .delivered report.latencyMs now
  | error error =>
    simp only [Bool.true_and]
    generalize ha : ({ attemptOf m attemptedAt report with
      responseCode := error.status?, error := some error.message } : Attempt) = a
    have hnumber : (attemptOf m attemptedAt report).number = a.number := by subst ha; rfl
    rw [hnumber]
    -- Whether there is another attempt is up to the definition of the channel.
    by_cases hretry : (spec.retryClassification.shouldRetry error &&
        spec.retryPolicy.allowsRetry a.number) = true
    · refine ⟨{ m with
          status := .queued
          attempts := m.attempts ++ [{ a with
            outcome := .retry
            retryDelayMs := some (spec.retryPolicy.delayFor a.number) }]
          scheduledAt := retryAt now (spec.retryPolicy.delayFor a.number) },
        some ⟨m.id, m.priority,
          now.add ((spec.retryPolicy.delayFor a.number).toNat * Time.millisecond)⟩,
        ⟨rfl, rfl, rfl, rfl, rfl, rfl, rfl, rfl, rfl⟩,
        fun x hx => (Option.some.inj hx) ▸ rfl, ?_⟩
      rintro e channel rfl
      have hagain : (channel.shouldRetry error &&
          channel.spec.retryPolicy.allowsRetry a.number) = true := hretry
      rw [if_pos hagain, settleRetry_eq _ hs]
      exact (e.countsOnly_blame channel.id error).withRecord _ _
    · refine ⟨{ m with
          status := .failed, attempts := m.attempts ++ [{ a with outcome := .failed }] }, none,
        ⟨rfl, rfl, rfl, rfl, rfl, rfl, rfl, rfl, rfl⟩, by simp, ?_⟩
      rintro e channel rfl
      have hlast : ¬ (channel.shouldRetry error &&
          channel.spec.retryPolicy.allowsRetry a.number) = true := hretry
      have hchannel : channel.id = m.channelId := hid
      rw [if_neg hlast, hchannel]
      refine ((e.countsOnly_blame m.channelId error).withRecord _ none).trans ?_
      simp only [settleFailed, Message.recordFailure, Message.moveTo, hs, Status.allows, if_true,
        Except.map, withRecord_none]
      exact countsOnly_mark _ _ .failed 0 now

/-- What the end of a call puts in the place of its message. -/
theorem exists_completed {spec : ChannelSpec} {m : Message} {call : Call}
    (hs : m.status = .sending) (hid : spec.id = m.channelId)
    (hc : call.channelId = m.channelId) (report : Report) (now : Instant) :
    ∃ m' t, m'.id = m.id ∧ (∀ x, t = some x → x.messageId = m'.id) ∧
      ∀ e : Engine, e.message? m.id = some m → e.callOf? m.id = some call →
        e.spec? m.channelId = some spec →
          ∃ e₁, (e.withRecord m' t).CountsOnly e₁ ∧ e.complete m.id report now = e₁.land m.id := by
  have hsame := m.sameOrigin_withNewContent call.rendered
  have hstatus : (withNewContent m call.rendered).status = .sending := by
    cases call.rendered <;> exact hs
  obtain ⟨m', t, horigin, htimer, hsettled⟩ :=
    exists_settled hstatus (hid.trans hsame.channelId.symm) call.attemptedAt report now
  have hm' : m'.id = m.id := horigin.id.trans hsame.id
  refine ⟨m', t, hm', htimer, fun e hm hcall hspec => ?_⟩
  obtain ⟨channel, hget, hchannel, -⟩ := get?_of_spec? hspec
  refine ⟨e.record m.id channel call.attemptedAt call.rendered report true now, ?_, ?_⟩
  · -- The content that is new goes in first, and the record replaces it.
    have hput : (e.putMessage (withNewContent m call.rendered)).withRecord m' t =
        e.withRecord m' t := by
      unfold withRecord
      rw [putMessage_putMessage e horigin.id.symm]
      rfl
    rw [← hput, record, hm]
    exact hsettled _ channel hchannel
  · unfold complete
    simp only [hcall, hc, hget]

end Engine

end Klaxon
