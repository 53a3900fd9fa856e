import Klaxon.Proofs.Dispatch.Endings
import Klaxon.Proofs.Dispatch.Offers
import Klaxon.Proofs.Dispatch.QuietHours

/-!
# Nothing is missing when messages go out

A request is checked before its message is made: the channel is there and has the type of the
message, and the template has a variant for this type. Each of the three ways to make a message
checks this in its own order, but they all check the pair of channel type and template that the
attempts will use (`deliverable_of_made`). Neither channel definitions nor templates change in a
run, so that what was checked stays true: `run_routed` says that an attempt always finds its channel
and its content, and that a message fails only of what the deliverer says or of the rate limit of
its channel.
-/

namespace Klaxon

/-! ## What messages fail of -/

/-- A failed message, behind what was seen of it, and the error that its last attempt shows. Either
the deliverer answered with this error, or the rate limit of the channel refused the call. -/
inductive Message.FailedOf (m : Message) : DispatchError → List Happening → Prop where
  | answer {before : List Happening} {report : Report} {error : DispatchError} {a : Attempt}
      {now : Instant} (hr : report.result = .error error) (ha : m.lastAttempt? = some a)
      (he : a.error = some error.message) :
      FailedOf m error (before ++ [.answered m.id report, .recorded m now])
  | rateLimit {before : List Happening} {claimed : Message} {a : Attempt} {now : Instant}
      (ha : m.lastAttempt? = some a)
      (he : a.error = some (DispatchError.rateLimited m.channelId).message) :
      FailedOf m (.rateLimited m.channelId) (before ++ [.begun claimed, .recorded m now])

/-- The attempt that makes a message fail shows the error that was reported. -/
theorem Message.Settles.failed_spec {spec : ChannelSpec} {attemptedAt now : Instant}
    {report : Report} {m m' : Message} {t : Option Timer}
    (h : m.Settles spec attemptedAt now report m' t) (hs : m'.status = .failed) :
    ∃ error a, report.result = .error error ∧ m'.lastAttempt? = some a ∧
      a.error = some error.message := by
  cases h with
  | delivered => simp at hs
  | retried => simp at hs
  | @failed error a hr _ _ _ he =>
    exact ⟨error, a, hr, List.getLast?_concat .., he⟩

/-- A failed message failed in a step that was seen, and nothing was seen of it since. -/
theorem Life.failedOf {e₀ : Engine} {id : String} {past : List Happening} {v : Position}
    (h : Life e₀ id past v) {m : Message} (hm : v.message = some m) (hs : m.status = .failed) :
    ∃ error, m.FailedOf error past := by
  induction h with
  | nowhere => simp at hm
  | made _ hnew =>
    obtain rfl := Option.some.inj hm
    simp [hnew.status] at hs
  | @step past seen v v' now hl h ih =>
    obtain ⟨before, hbefore, hcourse⟩ := h.course hl.fits hm
    cases hcourse with
    | kept hseen =>
      -- A failed message is not being sent, so that nothing is seen of the step.
      have hnone := hseen.resolve_right fun hsending => by simp [hsending] at hs
      rw [hnone, List.append_nil]
      exact ih hbefore
    | claimed => simp at hs
    | cancelled => simp at hs
    | settled _ _ _ hset hx =>
      obtain ⟨error, a, hr, ha, he⟩ := hset.failed_spec hs
      -- The error came with an answer, or the limiter gave it without a call.
      rcases hx with rfl | ⟨claimed, rfl, hlimited⟩
      · exact ⟨error, .answer hr ha he⟩
      · obtain rfl := Except.error.inj (hlimited.symm.trans hr)
        exact ⟨_, .rateLimit ha he⟩

/-- A stored message was made. -/
theorem Life.exists_made {e₀ : Engine} {id : String} {past : List Happening} {v : Position}
    (h : Life e₀ id past v) {m : Message} (hm : v.message = some m) :
    ∃ first, .made first ∈ past := by
  induction h generalizing m with
  | nowhere => simp at hm
  | @made first => exact ⟨first, List.mem_singleton_self _⟩
  | step _ h ih =>
    obtain ⟨before, hbefore, -⟩ := h.sameOrigin hm
    obtain ⟨first, hfirst⟩ := ih hbefore
    exact ⟨first, List.mem_append_left _ hfirst⟩

/-- A channel is found under its id. -/
theorem Registry.IsOrdered.get?_id {r : Registry} (h : r.IsOrdered) {c : Channel} (hc : c ∈ r) :
    r.get? c.id = some c := by
  have hnodup : (r.map Channel.id).Nodup := by
    refine List.Pairwise.imp (fun {a b} (hlt : a < b) => ?_) h
    rintro rfl
    exact String.lt_irrefl _ hlt
  exact Engine.find?_of_nodup hnodup hc

namespace Engine

/-! ## What is checked -/

/-- A message can go out: its channel is there and has the type of the message, and its template has
a variant for this type. -/
structure Deliverable (e : Engine) (m : Message) : Prop where
  channel : ∃ c, e.registry.get? m.channelId = some c ∧ c.channelType = m.channelType
  template : ∃ t, e.templates.get? m.templateId = some t ∧ t.supports m.channelType = true

variable {e₀ e : Engine} {past : List Happening}

/-- Whether a message can go out depends on what was decided when it was made. -/
theorem Deliverable.congr {m m' : Message} (h : e.Deliverable m) (hm : m.SameOrigin m') :
    e.Deliverable m' :=
  ⟨by rw [hm.channelId, hm.channelType]; exact h.channel,
    by rw [hm.templateId, hm.channelType]; exact h.template⟩

/-- Where templates and definitions are the same, the same messages can go out. -/
theorem Deliverable.of_eq {e' : Engine} {m : Message} (h : e.Deliverable m)
    (ht : e'.templates = e.templates)
    (hs : e'.registry.map Channel.spec = e.registry.map Channel.spec) : e'.Deliverable m := by
  refine ⟨?_, ht ▸ h.template⟩
  obtain ⟨c, hget, htype⟩ := h.channel
  have hspec : e'.spec? m.channelId = some c.spec := by
    rw [spec?_congr hs, spec?, hget]
    rfl
  obtain ⟨c', hget', hspec', -⟩ := get?_of_spec? hspec
  refine ⟨c', hget', ?_⟩
  calc c'.channelType = c.channelType := congrArg ChannelSpec.channelType hspec'
    _ = m.channelType := htype

/-- The channel and the template that were checked are those of the message. -/
theorem deliverable_of_check {m : Message} {c : Channel}
    (hcheck : e.checkTemplate m.templateId m.channelType = .ok ())
    (hget : e.registry.get? m.channelId = some c) (htype : c.channelType = m.channelType) :
    e.Deliverable m :=
  ⟨⟨c, hget, htype⟩, (routes_of_check hcheck hget rfl rfl).template⟩

/-- The message of an offer goes by the channel that was chosen for its type. -/
theorem deliverable_of_mem_notifyOver (hordered : e.registry.IsOrdered) {alert : Alert}
    {recipient : Recipient} {priority : Priority} {now : Instant} {channelType : ChannelType}
    {m : Message} (hm : m ∈ (e.notifyOver alert recipient priority now channelType).2) :
    e.Deliverable m := by
  unfold notifyOver at hm
  split at hm
  · simp at hm
  · next channel address hroute =>
    obtain ⟨hcheck, hselect⟩ := routeFor?_eq_some hroute
    obtain ⟨hmem, hserves, -⟩ := hordered.select_spec hselect
    split at hm
    · simp at hm
    · obtain rfl := List.mem_singleton.mp hm
      -- A channel is chosen among those of the type that is asked for.
      have htype : channel.channelType = channelType :=
        beq_iff_eq.mp (Bool.and_eq_true_iff.mp hserves).1
      rw [accept_snd]
      exact deliverable_of_check hcheck (hordered.get?_id hmem) htype

/-- The message of a draft that was accepted. -/
theorem eq_of_mem_madeBy {draft : Except DispatchError Draft} {now : Instant} {m : Message}
    (h : .made m ∈ madeBy (e.submit draft now).2) :
    ∃ d, draft = .ok d ∧ m = d.toMessage e.nextId now := by
  unfold submit at h
  cases draft with
  | error error => simp [madeBy] at h
  | ok d =>
    have hm := Happening.made.inj (List.mem_singleton.mp h)
    exact ⟨d, rfl, by rw [hm, accept_snd]⟩

/-- Whatever way a message is made, it can go out. -/
theorem deliverable_of_made (hordered : e.registry.IsOrdered) {now : Instant} {t : Turn}
    {m : Message} (h : .made m ∈ e.happenings now t) : e.Deliverable m := by
  cases t with
  | offer alert recipient priority channelType =>
    obtain ⟨m', hm', heq⟩ := List.mem_map.mp h
    obtain rfl := Happening.made.inj heq
    exact deliverable_of_mem_notifyOver hordered hm'
  | sendCustom recipientId channelId templateId context priority =>
    obtain ⟨d, hd, rfl⟩ := eq_of_mem_madeBy h
    obtain ⟨-, rfl, hcheck, channel, hget, htype⟩ := customDraft_eq_ok hd
    exact deliverable_of_check hcheck hget htype
  | sendWebhook alert channelId url =>
    obtain ⟨d, hd, rfl⟩ := eq_of_mem_madeBy h
    obtain ⟨-, -, -, hdtype, htemplate, hcheck, channel, hget, htype⟩ := webhookDraft_eq_ok hd
    rw [← htemplate, ← hdtype] at hcheck
    exact deliverable_of_check hcheck hget (htype.trans hdtype.symm)
  | cancel id =>
    simp only [happenings] at h
    split at h <;> simp at h
  | attempt id =>
    simp only [happenings] at h
    split at h
    · next claimed attemptedAt _ =>
      rcases List.mem_cons.mp h with h | h
      · simp at h
      · split at h
        · simp at h
        · simp [recorded] at h
    · simp at h
  | complete id report =>
    simp only [happenings] at h
    split at h
    · simp [recorded] at h
    · simp at h
  | _ => simp [happenings] at h

/-- A message that was made in a run can go out. -/
theorem Sound.deliverable_of_history (h : Sound e₀ e past) (hordered : e₀.registry.IsOrdered)
    {turns : List (Instant × Turn)} {m : Message} (hm : .made m ∈ e.history turns) :
    e₀.Deliverable m := by
  induction turns generalizing e past with
  | nil => simp [history] at hm
  | cons t rest ih =>
    rcases List.mem_append.mp hm with hm | hm
    · have hmade := deliverable_of_made (hordered.congr h.specs) hm
      exact hmade.of_eq h.templates.symm h.specs.symm
    · exact ih (turn_sound h t.1 t.2) hm

/-! ## Attempts -/

/-- Where channel and content are found, only the rate limit decides whether a call is made. -/
theorem isSome_attempt {m : Message} {channel : Channel}
    {content : RenderedContent × Option RenderedContent} {attemptedAt : Instant}
    (hget : e.registry.get? m.channelId = some channel) (hcontent : e.contentOf m = .ok content)
    (now : Instant) :
    (e.attempt m attemptedAt now).2.isSome = (channel.tryAcquire attemptedAt).2 := by
  have hid : channel.id = m.channelId := id_of_get?_eq_some hget
  have hcount : (e.countFirst m m.channelId attemptedAt).contentOf m = .ok content := by
    rw [contentOf_congr (e.alike_countFirst m attemptedAt).templates, hcontent]
  unfold attempt
  simp only [hget, hid, hcount]
  cases (channel.tryAcquire attemptedAt).2 <;> rfl

/-- No message misses its channel or its template. -/
structure Routed (e : Engine) (past : List Happening) : Prop where
  stored : ∀ m ∈ e.messages, e.Deliverable m
  /-- The attempt at a claimed message finds its channel and its content, and makes a call unless
  the rate limit of the channel refuses it. -/
  attempts : ∀ id m attemptedAt, e.stage? id = some (.claimed m attemptedAt) →
    ∃ channel content, e.registry.get? m.channelId = some channel ∧
      e.contentOf m = .ok content ∧
      ∀ now, (e.attempt m attemptedAt now).2.isSome = (channel.tryAcquire attemptedAt).2
  /-- The end of a call finds its channel. -/
  completes : ∀ id call, e.callOf? id = some call →
    ∃ channel, e.registry.get? call.channelId = some channel
  failed : ∀ m ∈ e.messages, m.status = .failed →
    ∃ error, m.FailedOf error (Happening.about m.id past)

/-- In every run, all messages have a channel of their type and a template with a variant for it,
every attempt finds both, and whatever fails, fails of the answer of a deliverer or of a rate
limit. -/
theorem run_routed (channels : List Channel) (templates : TemplateStore) (directory : Directory)
    (policy : Policy) (idSupply : IdSupply) (turns : List (Instant × Turn)) :
    ((create (.ofChannels channels) templates directory policy idSupply).run turns).Routed
      ((create (.ofChannels channels) templates directory policy idSupply).history turns) := by
  have hsound := run_sound (.ofChannels channels) templates directory policy idSupply turns
  have hordered := Registry.isOrdered_ofChannels channels
  refine ⟨fun m hm => ?_, fun id m attemptedAt hstage => ?_, fun id call hcall => ?_,
    fun m hm hs => ?_⟩
  · -- What was checked when the message was made is still true of it, as nothing of that has
    -- changed.
    obtain ⟨x, -, hlife⟩ := hsound.position hm
    obtain ⟨first, hfirst⟩ := hlife.exists_made rfl
    have hmade :
        (create (.ofChannels channels) templates directory policy idSupply).Deliverable first :=
      (create_sound _ templates directory policy idSupply).deliverable_of_history hordered
        (List.mem_filter.mp hfirst).1
    exact (hmade.congr ((hlife.sameOrigin hfirst).1 m rfl)).of_eq hsound.templates hsound.specs
  · obtain ⟨-, -, -, hroutes⟩ := hsound.claimed hstage
    obtain ⟨spec, hspec⟩ := hroutes.channel
    obtain ⟨channel, hget, -, -⟩ := get?_of_spec? hspec
    obtain ⟨content, rendered, hcontent⟩ := hroutes.contentOf
    exact ⟨channel, _, hget, hcontent, isSome_attempt hget hcontent⟩
  · obtain ⟨m, -, -, -, hchannel, hroutes⟩ := hsound.calling hcall
    obtain ⟨spec, hspec⟩ := hroutes.channel
    obtain ⟨channel, hget, -, -⟩ := get?_of_spec? hspec
    exact ⟨channel, hchannel ▸ hget⟩
  · obtain ⟨x, -, hlife⟩ := hsound.position hm
    exact hlife.failedOf rfl hs

end Engine

end Klaxon
