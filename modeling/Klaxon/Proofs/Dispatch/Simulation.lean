import Klaxon.Proofs.Dispatch.Turns

/-!
# Runs are made of lives

Whatever order the turns of a run come in, each id lives a life of its own: `turn_sound` says so of
one turn and `run_sound` of a run. All that is to be shown of the messages of a run then follows by
induction on `Life`, where there are neither other messages nor lanes.
-/

namespace Klaxon

namespace Engine

variable {e₀ e : Engine} {past : List Happening}

/-! ## New messages -/

/-- A computation that succeeded did so step by step. -/
theorem bind_eq_ok {α β ε : Type} {x : Except ε α} {f : α → Except ε β} {b : β}
    (h : x >>= f = .ok b) : ∃ a, x = .ok a ∧ f a = .ok b := by
  cases x with
  | error error => simp [bind, Except.bind] at h
  | ok a => exact ⟨a, rfl, h⟩

/-- The template that passed the check is there for a message of the channel type. -/
theorem routes_of_check {templateId : String} {channelType : ChannelType}
    (h : e.checkTemplate templateId channelType = .ok ()) {m : Message} {channel : Channel}
    (hchannel : e.registry.get? m.channelId = some channel) (ht : m.templateId = templateId)
    (hc : m.channelType = channelType) : e.Routes m := by
  refine ⟨⟨channel.spec, by simp [spec?, hchannel]⟩, ?_⟩
  unfold checkTemplate at h
  rw [ht, hc]
  split at h
  · simp at h
  · next t hget =>
    refine ⟨t, hget, ?_⟩
    split at h
    · next hsupports => exact hsupports
    · simp at h

/-- A channel that is chosen is there under its id. -/
theorem get?_of_select {r : Registry} {channelType : ChannelType} {priority : Priority}
    {channel : Channel} (h : r.select channelType priority = some channel) :
    ∃ c, r.get? channel.id = some c := by
  -- A channel that is chosen is one of the registry, so that its id is found there.
  have hmem : channel ∈ r := List.mem_of_find?_eq_some h
  refine Option.isSome_iff_exists.mp ?_
  unfold Registry.get?
  rw [List.find?_isSome]
  exact ⟨channel, hmem, beq_self_eq_true _⟩

/-- A route goes by the channel that is chosen, with a variant of the template for alerts. -/
theorem routeFor?_eq_some {recipient : Recipient} {priority : Priority} {channelType : ChannelType}
    {channel : Channel} {address : String}
    (h : e.routeFor? recipient priority channelType = some (channel, address)) :
    e.checkTemplate e.policy.alertTemplateId channelType = .ok () ∧
      e.registry.select channelType priority = some channel := by
  unfold routeFor? at h
  split at h
  · simp at h
  · next hcheck =>
    obtain ⟨chosen, hselect, h⟩ := Option.bind_eq_some_iff.mp h
    obtain ⟨_, -, hpair⟩ := Option.bind_eq_some_iff.mp h
    obtain rfl : chosen = channel := congrArg Prod.fst (Option.some.inj hpair)
    exact ⟨hcheck, hselect⟩

/-- An offer makes a message with a route, or none. -/
theorem offer_receives (e : Engine) (now : Instant) (alert : Alert) (recipient : Recipient)
    (priority : Priority) (channelType : ChannelType) :
    Receives e now (e.happenings now (.offer alert recipient priority channelType))
      (e.turn now (.offer alert recipient priority channelType)) := by
  simp only [turn, happenings, notifyOver]
  split
  · -- There is no route.
    exact .nothing (.refl e) fun _ => rfl
  · next channel address hroute =>
    split
    · -- The budget has no room, and the alert is suppressed.
      exact .nothing ⟨⟨rfl, rfl, rfl, rfl⟩, rfl, rfl, rfl, rfl⟩ fun w => by cases w <;> rfl
    · -- There is a slot for the message, which takes the route that was found.
      next slots scheduledAt _ =>
      obtain ⟨hcheck, hselect⟩ := routeFor?_eq_some hroute
      obtain ⟨found, hget⟩ := get?_of_select hselect
      have halike : e.Alike { e with slots } := ⟨⟨rfl, rfl, rfl, rfl⟩, rfl, rfl, rfl, rfl⟩
      exact .message halike (fun w => by cases w <;> rfl) _
        (routes_of_check hcheck hget rfl rfl)

/-- A draft that is accepted makes a message. -/
theorem submit_receives (e : Engine) (now : Instant) (draft : Except DispatchError Draft)
    (hr : ∀ d, draft = .ok d → e.Routes (d.toMessage e.nextId now)) :
    Receives e now (madeBy (e.submit draft now).2) (e.submit draft now).1 := by
  unfold submit
  cases draft with
  | error error => exact .nothing (.refl e) fun _ => rfl
  | ok d => exact .message (.refl e) (fun _ => rfl) d (hr d rfl)

/-- An enabled channel is the one that is there under its id. -/
theorem enabledChannel_eq_ok {id : String} {channel : Channel}
    (h : e.enabledChannel id = .ok channel) :
    channel.id = id ∧ e.registry.get? channel.id = some channel := by
  unfold enabledChannel at h
  split at h
  · simp at h
  · next c hget =>
    split at h
    · obtain rfl := Except.ok.inj h
      have hid := id_of_get?_eq_some hget
      exact ⟨hid, hid.symm ▸ hget⟩
    · simp at h

/-- What is decided about a custom message: it goes over a channel that is there, and the template
serves the type of this channel. -/
theorem customDraft_eq_ok {recipientId channelId templateId : String} {context : Json}
    {priority : Priority} {now : Instant} {d : Draft}
    (h : e.customDraft recipientId channelId templateId context priority now = .ok d) :
    d.scheduledAt = now ∧ d.templateId = templateId ∧
      e.checkTemplate templateId d.channelType = .ok () ∧
      ∃ channel, e.registry.get? d.channelId = some channel ∧
        channel.channelType = d.channelType := by
  -- The checks come one after the other, and each bind that succeeded leaves what it checked.
  unfold customDraft at h
  obtain ⟨channel, hchannel, h⟩ := bind_eq_ok h
  obtain ⟨_, hcheck, h⟩ := bind_eq_ok h
  simp only at h
  split at h
  · obtain ⟨recipient, -, h⟩ := bind_eq_ok h
    split at h
    · obtain ⟨address, -, h⟩ := bind_eq_ok h
      obtain rfl := Except.ok.inj h
      exact ⟨rfl, rfl, hcheck, channel, (enabledChannel_eq_ok hchannel).2, rfl⟩
    · obtain ⟨_, hnone, -⟩ := bind_eq_ok h
      simp at hnone
  · obtain ⟨_, hnone, -⟩ := bind_eq_ok h
    simp at hnone

/-- A custom message is received, or refused. -/
theorem sendCustom_receives (e : Engine) (now : Instant)
    (recipientId channelId templateId : String) (context : Json) (priority : Priority) :
    Receives e now
      (e.happenings now (.sendCustom recipientId channelId templateId context priority))
      (e.turn now (.sendCustom recipientId channelId templateId context priority)) := by
  refine submit_receives e now _ fun d hd => ?_
  obtain ⟨-, htemplate, hcheck, channel, hget, -⟩ := customDraft_eq_ok hd
  exact routes_of_check hcheck hget htemplate rfl

/-- What is decided about the message of a webhook call: it goes over the channel of the call, which
is a webhook, and the template for alerts serves webhooks. -/
theorem webhookDraft_eq_ok {alert : Alert} {channelId : String} {url : Option String}
    {now : Instant} {d : Draft} (h : e.webhookDraft alert channelId url now = .ok d) :
    d.scheduledAt = now ∧ d.alertId = some alert.id ∧ d.channelId = channelId ∧
      d.channelType = .webhook ∧ d.templateId = e.policy.alertTemplateId ∧
      e.checkTemplate e.policy.alertTemplateId .webhook = .ok () ∧
      ∃ channel, e.registry.get? d.channelId = some channel ∧
        channel.channelType = .webhook := by
  unfold webhookDraft at h
  obtain ⟨channel, hchannel, h⟩ := bind_eq_ok h
  split at h
  · -- The channel is no webhook.
    obtain ⟨_, hnone, -⟩ := bind_eq_ok h
    simp [throw, throwThe, MonadExceptOf.throw] at hnone
  · next htype =>
    obtain ⟨_, hcheck, h⟩ := bind_eq_ok h
    obtain rfl := Except.ok.inj h
    obtain ⟨hid, hget⟩ := enabledChannel_eq_ok hchannel
    exact ⟨rfl, rfl, hid, rfl, rfl, hcheck, channel, hget, Decidable.of_not_not htype⟩

/-- So is the message of a webhook call. -/
theorem sendWebhook_receives (e : Engine) (now : Instant) (alert : Alert) (channelId : String)
    (url : Option String) :
    Receives e now (e.happenings now (.sendWebhook alert channelId url))
      (e.turn now (.sendWebhook alert channelId url)) := by
  refine submit_receives e now _ fun d hd => ?_
  obtain ⟨-, -, -, htype, htemplate, hcheck, channel, hget, -⟩ := webhookDraft_eq_ok hd
  exact routes_of_check hcheck hget htemplate htype

/-! ## Runs -/

/-- A request makes a message, or none. -/
theorem turn_receives (e : Engine) (now : Instant) {t : Turn} (ht : t.isRequest = true) :
    Receives e now (e.happenings now t) (e.turn now t) := by
  cases t with
  | offer alert recipient priority channelType =>
    exact e.offer_receives now alert recipient priority channelType
  | holdBack => exact .nothing (alike_statistics e _) fun w => by cases w <;> rfl
  | sendCustom recipientId channelId templateId context priority =>
    exact e.sendCustom_receives now recipientId channelId templateId context priority
  | sendWebhook alert channelId url => exact e.sendWebhook_receives now alert channelId url
  | _ => simp [Turn.isRequest] at ht

/-- Every other turn takes a step with each message that there is. -/
theorem turn_moves (h : Sound e₀ e past) (now : Instant) {t : Turn} (ht : t.isRequest = false) :
    Moves e₀ e now (e.happenings now t) (e.turn now t) := by
  cases t with
  | offer | holdBack | sendCustom | sendWebhook => simp [Turn.isRequest] at ht
  | cancel id => exact cancel_moves h now id
  | prune before => exact prune_moves h now before
  | pull p => exact pull_moves h now p
  | claim id => exact claim_moves h now id
  | attempt id => exact attempt_moves h now id
  | complete id report => exact complete_moves h now id report
  | fire timer => exact fire_moves h now timer
  | report => exact h.movesNone now (alike_statistics e _) fun w => by cases w <;> rfl
  | setDirectory directory =>
    exact h.movesNone now ⟨⟨rfl, rfl, rfl, rfl⟩, rfl, rfl, rfl, rfl⟩ fun _ => rfl
  | markUnhealthy channelId =>
    exact h.movesNone now (e.alike_modifyChannel channelId fun _ => rfl)
      (e.tally_modifyChannel channelId (fun _ => rfl) fun _ => rfl)
  | restore channelId =>
    exact h.movesNone now (e.alike_modifyChannel channelId fun _ => rfl)
      (e.tally_modifyChannel channelId (fun _ => rfl) fun _ => rfl)

/-- Every turn goes on with the lives that there are, or begins one. -/
theorem turn_sound (h : Sound e₀ e past) (now : Instant) (t : Turn) :
    Sound e₀ (e.turn now t) (past ++ e.happenings now t) := by
  -- A request begins a life at most, and every other turn only goes on with those that there are.
  cases ht : t.isRequest with
  | true => exact h.receives (e.turn_receives now ht)
  | false => exact h.moves (turn_moves h now ht)

/-- A run keeps an engine sound. -/
theorem Sound.run (h : Sound e₀ e past) (turns : List (Instant × Turn)) :
    Sound e₀ (e.run turns) (past ++ e.history turns) := by
  induction turns generalizing e past with
  | nil =>
    simp only [Engine.run, history, List.append_nil]
    exact h
  | cons t rest ih =>
    have hnext := ih (turn_sound h t.1 t.2)
    simp only [Engine.run, history]
    rw [← List.append_assoc]
    exact hnext

/-- Every run of an engine that began without messages is made of lives. -/
theorem run_sound (registry : Registry) (templates : TemplateStore) (directory : Directory)
    (policy : Policy) (idSupply : IdSupply) (turns : List (Instant × Turn)) :
    Sound (create registry templates directory policy idSupply)
      ((create registry templates directory policy idSupply).run turns)
      ((create registry templates directory policy idSupply).history turns) :=
  (create_sound registry templates directory policy idSupply).run turns

end Engine

end Klaxon
