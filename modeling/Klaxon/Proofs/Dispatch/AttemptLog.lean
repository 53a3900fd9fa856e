import Klaxon.Proofs.Dispatch.Deliveries

/-!
# The log of attempts

The log of a message and its status say the same. Attempts are numbered from 1, and all but the last
were retried, with the delay that the channel's policy gives for their number. A message that is not
settled was retried each time; one that was delivered succeeded last; and one that failed had no
retry left, or the channel's classification refused to retry its last error. `Message.LogFits` holds
this for one message, and `run_logFits` shows it of every message in every run.

The policy has to allow fewer retries than there are words of 32 bits, since attempts are numbered
by such words.
-/

namespace Klaxon

/-- Attempts that were all retried, as far as a policy allows it. -/
structure RetryPolicy.Covers (p : RetryPolicy) (attempts : List Attempt) : Prop where
  numbered : ∀ i (h : i < attempts.length), attempts[i].number.toNat = i + 1
  retried : ∀ a ∈ attempts, a.outcome = .retry ∧ a.retryDelayMs = some (p.delayFor a.number)
  length_le : attempts.length ≤ p.maxRetries.toNat

/-- No attempts at all. -/
theorem RetryPolicy.covers_nil (p : RetryPolicy) : p.Covers [] :=
  ⟨fun i hi => by simp at hi, fun a ha => by simp at ha, Nat.zero_le _⟩

/-- Numbers go on behind the last attempt. -/
theorem numbered_concat {attempts : List Attempt} {a : Attempt}
    (h : ∀ i (h : i < attempts.length), attempts[i].number.toNat = i + 1)
    (ha : a.number.toNat = attempts.length + 1) :
    ∀ i (h : i < (attempts ++ [a]).length), (attempts ++ [a])[i].number.toNat = i + 1 := by
  intro i hi
  rw [List.length_append, List.length_singleton] at hi
  -- Either the index is one of the old attempts or that of the new one.
  by_cases hlast : i < attempts.length
  · rw [List.getElem_append_left hlast]
    exact h i hlast
  · obtain rfl : i = attempts.length := by omega
    rw [List.getElem_concat_length rfl]
    exact ha

/-- One more attempt was retried. -/
theorem RetryPolicy.Covers.concat {p : RetryPolicy} {attempts : List Attempt} {a : Attempt}
    (h : p.Covers attempts) (ha : a.number.toNat = attempts.length + 1) (ho : a.outcome = .retry)
    (hd : a.retryDelayMs = some (p.delayFor a.number))
    (hallows : p.allowsRetry a.number = true) : p.Covers (attempts ++ [a]) := by
  refine ⟨numbered_concat h.numbered ha, fun b hb => ?_, ?_⟩
  · rcases List.mem_append.mp hb with hb | hb
    · exact h.retried b hb
    · rw [List.mem_singleton.mp hb]
      exact ⟨ho, hd⟩
  · have hle : a.number.toNat ≤ p.maxRetries.toNat :=
      UInt32.le_iff_toNat_le.mp (of_decide_eq_true hallows)
    rw [List.length_append, List.length_singleton]
    omega

/-- What was seen of a message ends with an answer that the channel does not retry, recorded as an
attempt. -/
def ChannelSpec.Refuses (spec : ChannelSpec) (id : String) (a : Attempt)
    (past : List Happening) : Prop :=
  ∃ before report error m now,
    past = before ++ [.answered id report, .recorded m now] ∧ report.result = .error error ∧
      a.error = some error.message ∧ spec.retryClassification.shouldRetry error = false

namespace Message

/-- The log and the status of a message that a channel has to deliver, behind what was seen of the
message. -/
structure LogFits (m : Message) (spec : ChannelSpec) (past : List Happening) : Prop where
  numbered : ∀ i (h : i < m.attempts.length), m.attempts[i].number.toNat = i + 1
  length_le : m.attempts.length ≤ spec.retryPolicy.maxRetries.toNat + 1
  retried : ∀ a ∈ m.attempts.dropLast, a.outcome = .retry
  delays : ∀ a ∈ m.attempts, a.retryDelayMs =
    if a.outcome = .retry then some (spec.retryPolicy.delayFor a.number) else none
  delivered : m.status = .delivered ↔ m.lastAttempt?.map Attempt.outcome = some .success
  deliveredAt : m.status = .delivered ↔ m.deliveredAt.isSome = true
  failed : m.status = .failed ↔ m.lastAttempt?.map Attempt.outcome = some .failed
  lastFailure : m.status = .failed →
    m.attempts.length = spec.retryPolicy.maxRetries.toNat + 1 ∨
      ∃ a, m.lastAttempt? = some a ∧ spec.Refuses m.id a past
  exhausted : m.status = .failed → spec.retryClassification = .all →
    m.attempts.length = spec.retryPolicy.maxRetries.toNat + 1
  unsettled : m.status = .queued ∨ m.status = .sending ∨ m.status = .cancelled →
    (∀ a ∈ m.attempts, a.outcome = .retry) ∧
      m.attempts.length ≤ spec.retryPolicy.maxRetries.toNat

/-- The same by status, as steps go along. -/
inductive Logged (m : Message) (spec : ChannelSpec) (past : List Happening) : Prop where
  | unsettled (hs : m.status = .queued ∨ m.status = .sending ∨ m.status = .cancelled)
      (hd : m.deliveredAt = none) (hlog : spec.retryPolicy.Covers m.attempts)
  | delivered {before : List Attempt} {a : Attempt} (hs : m.status = .delivered)
      (hd : m.deliveredAt.isSome = true) (hattempts : m.attempts = before ++ [a])
      (hlog : spec.retryPolicy.Covers before) (hnumber : a.number.toNat = before.length + 1)
      (ho : a.outcome = .success) (hdelay : a.retryDelayMs = none)
  | failed {before : List Attempt} {a : Attempt} (hs : m.status = .failed)
      (hd : m.deliveredAt = none) (hattempts : m.attempts = before ++ [a])
      (hlog : spec.retryPolicy.Covers before) (hnumber : a.number.toNat = before.length + 1)
      (ho : a.outcome = .failed) (hdelay : a.retryDelayMs = none)
      (hlast : before.length = spec.retryPolicy.maxRetries.toNat ∨ spec.Refuses m.id a past)

/-- The next number does not overflow. -/
theorem toNat_nextAttemptNumber {m : Message} {p : RetryPolicy} (h : p.Covers m.attempts)
    (hp : p.maxRetries.toNat < 2 ^ 32 - 1) :
    m.nextAttemptNumber.toNat = m.attempts.length + 1 := by
  have hle := h.length_le
  unfold nextAttemptNumber
  rw [UInt32.toNat_add, UInt32.toNat_ofNat']
  have hone : (1 : UInt32).toNat = 1 := rfl
  rw [hone]
  omega

/-- What an attempt leaves in the log of a message that was retried so far. -/
theorem Settles.logged {spec : ChannelSpec} {attemptedAt now : Instant} {report : Report}
    {m m' : Message} {t : Option Timer} {past : List Happening}
    (h : m.Settles spec attemptedAt now report m' t) (hd : m.deliveredAt = none)
    (hlog : spec.retryPolicy.Covers m.attempts)
    (hp : spec.retryPolicy.maxRetries.toNat < 2 ^ 32 - 1)
    (hrefuses : ∀ error a, report.result = .error error → a.error = some error.message →
      spec.retryClassification.shouldRetry error = false → spec.Refuses m.id a past) :
    m'.Logged spec past := by
  have hnext := toNat_nextAttemptNumber hlog hp
  cases h with
  | delivered hr ha ho hdelay =>
    exact .delivered rfl rfl rfl hlog (ha.number ▸ hnext) ho hdelay
  | retried hr ha ho hdelay hworth hallows =>
    exact .unsettled (.inl rfl) hd (hlog.concat (ha.number ▸ hnext) ho hdelay hallows)
  | @failed error a hr ha ho hdelay he hlast =>
    have hnumber : a.number.toNat = m.attempts.length + 1 := ha.number ▸ hnext
    refine .failed rfl hd rfl hlog hnumber ho hdelay ?_
    cases hworth : spec.retryClassification.shouldRetry error with
    | false => exact .inr (hrefuses error a hr he hworth)
    | true =>
      -- The error is worth a retry, so that there was none left.
      have hdenied : ¬ a.number ≤ spec.retryPolicy.maxRetries := fun hle =>
        hlast ⟨hworth, decide_eq_true hle⟩
      rw [UInt32.le_iff_toNat_le, hnumber] at hdenied
      have hle := hlog.length_le
      exact .inl (by omega)

/-- Whoever waits or is being sent was retried each time. -/
theorem Logged.covers {m : Message} {spec : ChannelSpec} {past : List Happening}
    (h : m.Logged spec past) (hs : m.status = .queued ∨ m.status = .sending) :
    m.deliveredAt = none ∧ spec.retryPolicy.Covers m.attempts := by
  cases h with
  | unsettled _ hd hlog => exact ⟨hd, hlog⟩
  | delivered hdelivered => simp [hdelivered] at hs
  | failed hfailed => simp [hfailed] at hs

end Message

/-- A claimed message is being sent. -/
theorem Position.Shape.sending {m : Message} {s : Stage}
    (hv : Position.Shape ⟨some m, some (.flight s)⟩) (hs : s ≠ .pulled) :
    m.status = .sending := by
  cases s with
  | pulled => exact absurd rfl hs
  | claimed =>
    cases hv with
    | queued _ hi => exact hi.elim
    | claimed hsend => exact hsend
    | cancelled _ hi => exact (hi _ rfl).elim
  | calling =>
    cases hv with
    | queued _ hi => exact hi.elim
    | calling hsend => exact hsend
    | cancelled _ hi => exact (hi _ rfl).elim

/-- A step keeps the log of a message in order. -/
theorem Step.logged {e₀ : Engine} {id : String} {now : Instant} {hs past : List Happening}
    {v v' : Position} {spec : ChannelSpec} (h : Step e₀ id now v hs v') (hv : v.Fits e₀ id)
    (hp : spec.retryPolicy.maxRetries.toNat < 2 ^ 32 - 1) {m m' : Message}
    (hm : v.message = some m) (hm' : v'.message = some m')
    (hspec : e₀.spec? m.channelId = some spec) (hlog : m.Logged spec past) :
    m'.Logged spec (past ++ hs) := by
  -- Neither a rendering nor its absence touches the log.
  have hcontent {content : Option RenderedContent} (hsend : m.status = .sending) :
      (Engine.withNewContent m content).deliveredAt = none ∧
        spec.retryPolicy.Covers (Engine.withNewContent m content).attempts := by
    rw [attempts_withNewContent]
    obtain ⟨hd, hcovers⟩ := hlog.covers (.inr hsend)
    exact ⟨by cases content <;> exact hd, hcovers⟩
  cases h with
  | stay =>
    obtain rfl := Option.some.inj (hm.symm.trans hm')
    exact (List.append_nil past).symm ▸ hlog
  | cancelled hq =>
    obtain rfl := Option.some.inj hm
    obtain rfl := Option.some.inj hm'
    obtain ⟨hd, hcovers⟩ := hlog.covers (.inl hq)
    exact .unsettled (.inr (.inr rfl)) hd hcovers
  | forgotten => simp at hm'
  | pulled =>
    obtain rfl := Option.some.inj (hm.symm.trans hm')
    exact (List.append_nil past).symm ▸ hlog
  | skipped =>
    obtain rfl := Option.some.inj (hm.symm.trans hm')
    exact (List.append_nil past).symm ▸ hlog
  | claimed hq =>
    obtain rfl := Option.some.inj hm
    obtain rfl := Option.some.inj hm'
    obtain ⟨hd, hcovers⟩ := hlog.covers (.inl hq)
    exact .unsettled (.inr (.inl rfl)) hd hcovers
  | called =>
    obtain rfl := Option.some.inj hm
    obtain rfl := Option.some.inj hm'
    have hsend := hv.shape.sending (by simp)
    obtain ⟨hd, hcovers⟩ := hlog.covers (.inr hsend)
    exact .unsettled (.inr (.inl hsend)) hd hcovers
  | refused hspec' _ hset =>
    obtain rfl := Option.some.inj hm
    obtain rfl := Option.some.inj hm'
    obtain rfl := Option.some.inj (hspec.symm.trans hspec')
    -- The channel held the call back: the attempt has an error, but no call answered.
    obtain ⟨hd, hcovers⟩ := hcontent (hv.shape.sending (by simp))
    refine hset.logged hd hcovers hp fun error a hr _ hno => ?_
    -- The limit of a channel is always worth a retry.
    -- The error is the limit of the channel, and so no error that stops the attempts.
    obtain rfl := Except.error.inj hr
    cases hc : spec.retryClassification <;>
      simp [hc, RetryClassification.shouldRetry, DispatchError.kind] at hno
  | @completed m₀ _ call _ report _ hspec' hset =>
    obtain rfl := Option.some.inj hm
    obtain rfl := Option.some.inj hm'
    obtain rfl := Option.some.inj (hspec.symm.trans hspec')
    -- The answer and the record behind it are what the happenings end with, as `Refuses` asks.
    obtain ⟨hd, hcovers⟩ := hcontent (hv.shape.sending (by simp))
    refine hset.logged hd hcovers hp fun error a hr he hno => ?_
    have hid : (Engine.withNewContent m₀ call.rendered).id = id :=
      (m₀.sameOrigin_withNewContent call.rendered).id.trans (hv.stored m₀ rfl).1
    rw [hid]
    exact ⟨past, report, error, _, now, rfl, hr, he, hno⟩
  | fired =>
    obtain rfl := Option.some.inj (hm.symm.trans hm')
    exact (List.append_nil past).symm ▸ hlog
  | dropped =>
    obtain rfl := Option.some.inj (hm.symm.trans hm')
    exact (List.append_nil past).symm ▸ hlog

/-- The log of a message is in order all its life. -/
theorem Life.logged {e₀ : Engine} {id : String} {past : List Happening} {v : Position}
    {spec : ChannelSpec} (h : Life e₀ id past v)
    (hp : spec.retryPolicy.maxRetries.toNat < 2 ^ 32 - 1) {m : Message}
    (hm : v.message = some m) (hspec : e₀.spec? m.channelId = some spec) :
    m.Logged spec past := by
  induction h generalizing m with
  | nowhere => simp at hm
  | made _ hnew =>
    obtain rfl := Option.some.inj hm
    refine .unsettled (.inl hnew.status) hnew.deliveredAt ?_
    rw [hnew.attempts]
    exact spec.retryPolicy.covers_nil
  | step hl h ih =>
    obtain ⟨m₀, hm₀, hsame⟩ := h.sameOrigin hm
    rw [hsame.channelId] at hspec
    exact h.logged hl.fits hp hm₀ hm hspec (ih hm₀ hspec)

/-! ## What the log says -/

/-- The log of a message that was not settled. -/
theorem RetryPolicy.Covers.logFits {spec : ChannelSpec} {m : Message} {past : List Happening}
    (h : spec.retryPolicy.Covers m.attempts)
    (hs : m.status = .queued ∨ m.status = .sending ∨ m.status = .cancelled)
    (hd : m.deliveredAt = none) : m.LogFits spec past := by
  have hdelivered : m.status ≠ .delivered := by rcases hs with hs | hs | hs <;> simp [hs]
  have hfailed : m.status ≠ .failed := by rcases hs with hs | hs | hs <;> simp [hs]
  -- All attempts of the log were retried, and so neither a success nor a failure is the last one.
  have hlast (o : Outcome) (ho : o ≠ .retry) :
      m.lastAttempt?.map Attempt.outcome ≠ some o := by
    intro hmap
    obtain ⟨a, hmem, houtcome⟩ := Option.map_eq_some_iff.mp hmap
    have hretry := (h.retried a (List.mem_of_getLast? hmem)).1
    exact ho (houtcome.symm.trans hretry)
  refine
    { numbered := h.numbered
      length_le := Nat.le_succ_of_le h.length_le
      retried := fun a ha => (h.retried a ((List.dropLast_sublist _).mem ha)).1
      delays := fun a ha => ?_
      delivered := ⟨fun hc => absurd hc hdelivered, fun hc => absurd hc (hlast _ (by decide))⟩
      deliveredAt := ⟨fun hc => absurd hc hdelivered, fun hc => by simp [hd] at hc⟩
      failed := ⟨fun hc => absurd hc hfailed, fun hc => absurd hc (hlast _ (by decide))⟩
      lastFailure := fun hc => absurd hc hfailed
      exhausted := fun hc => absurd hc hfailed
      unsettled := fun _ => ⟨fun a ha => (h.retried a ha).1, h.length_le⟩ }
  obtain ⟨ho, hdelay⟩ := h.retried a ha
  rw [ho, if_pos rfl]
  exact hdelay

/-- The delays in a log whose last attempt was not retried. -/
theorem RetryPolicy.Covers.delays {p : RetryPolicy} {before : List Attempt} {a : Attempt}
    (h : p.Covers before) (ho : a.outcome ≠ .retry) (hdelay : a.retryDelayMs = none) :
    ∀ b ∈ before ++ [a], b.retryDelayMs =
      if b.outcome = .retry then some (p.delayFor b.number) else none := by
  intro b hb
  rcases List.mem_append.mp hb with hb | hb
  · obtain ⟨hretry, hb⟩ := h.retried b hb
    rw [hretry, if_pos rfl]
    exact hb
  · rw [List.mem_singleton.mp hb, if_neg ho]
    exact hdelay

/-- A log in order fits. -/
theorem Message.Logged.logFits {m : Message} {spec : ChannelSpec} {past : List Happening}
    (h : m.Logged spec past) : m.LogFits spec past := by
  cases h with
  | unsettled hs hd hlog => exact hlog.logFits hs hd
  | @delivered before a hs hd hattempts hlog hnumber ho hdelay =>
    have hlast : m.lastAttempt? = some a := by
      unfold lastAttempt?
      rw [hattempts, List.getLast?_concat]
    refine
      { numbered := ?_
        length_le := ?_
        retried := ?_
        delays := ?_
        delivered := by simp [hs, hlast, ho]
        deliveredAt := by simp [hs, hd]
        failed := by simp [hs, hlast, ho]
        lastFailure := fun hc => by simp [hs] at hc
        exhausted := fun hc => by simp [hs] at hc
        unsettled := fun hc => by simp [hs] at hc }
    · rw [hattempts]
      exact numbered_concat hlog.numbered hnumber
    · rw [hattempts, List.length_append]
      exact Nat.succ_le_succ hlog.length_le
    · rw [hattempts, List.dropLast_concat]
      exact fun b hb => (hlog.retried b hb).1
    · rw [hattempts]
      exact hlog.delays (by simp [ho]) hdelay
  | @failed before a hs hd hattempts hlog hnumber ho hdelay hend =>
    have hlast : m.lastAttempt? = some a := by
      unfold lastAttempt?
      rw [hattempts, List.getLast?_concat]
    have hlength : m.attempts.length = before.length + 1 := by
      rw [hattempts, List.length_append, List.length_singleton]
    refine
      { numbered := ?_
        length_le := ?_
        retried := ?_
        delays := ?_
        delivered := by simp [hs, hlast, ho]
        deliveredAt := by simp [hs, hd]
        failed := by simp [hs, hlast, ho]
        lastFailure := fun _ => ?_
        exhausted := fun _ hall => ?_
        unsettled := fun hc => by simp [hs] at hc }
    · rw [hattempts]
      exact numbered_concat hlog.numbered hnumber
    · rw [hlength]
      exact Nat.succ_le_succ hlog.length_le
    · rw [hattempts, List.dropLast_concat]
      exact fun b hb => (hlog.retried b hb).1
    · rw [hattempts]
      exact hlog.delays (by simp [ho]) hdelay
    · rcases hend with hend | hend
      · exact .inl (by rw [hlength, hend])
      · exact .inr ⟨a, hlast, hend⟩
    · rcases hend with hend | ⟨_, _, error, _, _, -, -, -, hno⟩
      · rw [hlength, hend]
      · simp [hall, RetryClassification.shouldRetry] at hno

namespace Engine

/-- Log and status of every message say the same, whatever a run does. -/
theorem run_logFits (registry : Registry) (templates : TemplateStore) (directory : Directory)
    (policy : Policy) (idSupply : IdSupply) (turns : List (Instant × Turn)) {m : Message}
    {channel : Channel}
    (hm : m ∈ ((create registry templates directory policy idSupply).run turns).messages)
    (hchannel : ((create registry templates directory policy idSupply).run turns).registry.get?
      m.channelId = some channel)
    (hp : channel.spec.retryPolicy.maxRetries.toNat < 2 ^ 32 - 1) :
    m.LogFits channel.spec
      (Happening.about m.id
        ((create registry templates directory policy idSupply).history turns)) := by
  have hsound := run_sound registry templates directory policy idSupply turns
  -- Each stored message has a life of its own, and the log was in order all along it.
  obtain ⟨x, -, hlife⟩ := hsound.position hm
  have hspec : (create registry templates directory policy idSupply).spec? m.channelId =
      some channel.spec := by
    rw [← hsound.spec?]
    unfold spec?
    rw [hchannel]
    rfl
  exact (hlife.logged hp rfl hspec).logFits

/-- A channel that is not asked again where a message was refused. -/
def hook : Channel :=
  let spec : ChannelSpec :=
    { id := "hook", name := "Hook", channelType := .webhook, enabled := true, config := .null
      retryPolicy := .standard, rateLimit := .standard, supportedPriorities := []
      retryClassification := .transientOnly }
  ⟨spec, true, 0, .zero, 0, .ofLimit spec.rateLimit⟩

/-- An alert without rule, event or place. -/
def blaze : Alert :=
  { id := "a1", ruleId := none, eventId := none, alertType := "fire", severity := .medium
    title := "Fire", message := "Fire in the hall", detectedAt := ⟨0, false⟩, location := none
    context := .null }

/-- A request for a message to the channel, and the one attempt at it. -/
def tryOnce (id : String) (result : Except DispatchError Receipt) : List (Instant × Turn) :=
  [.sendWebhook blaze "hook" none, .pull .normal, .claim id, .attempt id,
    .complete id ⟨result, 0⟩].map fun t => (⟨0, false⟩, t)

/-- The log of a message that was refused has one attempt. -/
theorem refused_logFits :
    ∃ m : Message, m.status = .failed ∧ m.attempts.length = 1 ∧
      m.LogFits hook.spec (Happening.about m.id
        ((create [hook] .withDefaults [] .standard).history
          (tryOnce "m1" (.error (.rejected "no such page"))))) := by
  have hany : ((create [hook] .withDefaults [] .standard).run
      (tryOnce "m1" (.error (.rejected "no such page")))).messages.any (fun m =>
        decide (m.channelId = "hook" ∧ m.status = .failed ∧ m.attempts.length = 1)) = true := by
    decide +kernel
  have hspec : (((create [hook] .withDefaults [] .standard).run
      (tryOnce "m1" (.error (.rejected "no such page")))).registry.get? "hook").map
        Channel.spec = some hook.spec := by
    rfl
  obtain ⟨m, hm, hfacts⟩ := List.any_eq_true.mp hany
  obtain ⟨hid, hstatus, hlength⟩ := of_decide_eq_true hfacts
  obtain ⟨channel, hchannel, hspec⟩ := Option.map_eq_some_iff.mp hspec
  rw [← hid] at hchannel
  refine ⟨m, hstatus, hlength, ?_⟩
  rw [← hspec]
  exact run_logFits [hook] .withDefaults [] .standard .numbered _ hm hchannel
    (by rw [hspec]; decide)

end Engine

end Klaxon
