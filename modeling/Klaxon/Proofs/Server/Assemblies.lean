import Klaxon.Proofs.Dispatch.FanOut
import Klaxon.Proofs.Server.Responses

/-!
# What the report of an assembly promises

A configuration whose report is clean has a template for alerts, and every webhook call of its rules
names a webhook channel. A webhook call asks for two things more: the channel has to be enabled, and
the template has to have a variant for webhooks (`Engine.webhookFault?`). Nothing else can go wrong
with it, whatever is asked of the server before: `callsAsConfigured_of_isClean` says for each event
which actions fail, and why. So no action fails if the channels are enabled and the variant is
there, and `mailedAlerts_fails` is a clean configuration without the variant whose events all leave
a failed action.

What a webhook call reads, the policy, the templates and the definitions of the channels, is the
same in all engines of a run (`RunsFrom.webhookFault?_eq`).
-/

namespace Klaxon

namespace Engine

/-- The error of calls of a webhook channel that is there, with a template for alerts that is
there. -/
def webhookFault? (e : Engine) (channelId : String) : Option DispatchError :=
  if (e.spec? channelId).any ChannelSpec.enabled then
    if e.hasVariant .webhook then none
    else some (.templateUnsupported e.policy.alertTemplateId .webhook)
  else some (.channelDisabled channelId)

/-- Whether the webhook channel that an action calls is there. -/
def KnowsWebhook (e : Engine) : Action → Prop
  | .webhookCall channelId _ =>
    ∃ spec, e.spec? channelId = some spec ∧ spec.channelType = .webhook
  | _ => True

/-- The line of an action that fails. -/
def faultLine? (e : Engine) (rule : Rule) : Action → Option String
  | .webhookCall channelId _ =>
    (e.webhookFault? channelId).map (Server.failedWebhook rule channelId)
  | _ => none

/-- A call of a webhook channel that is there fails of its fault, or a message is drafted. -/
theorem webhookDraft_spec {e : Engine} {channelId : String} {spec : ChannelSpec} {t : Template}
    (hspec : e.spec? channelId = some spec) (htype : spec.channelType = .webhook)
    (ht : e.templates.get? e.policy.alertTemplateId = some t) (alert : Alert)
    (url : Option String) (now : Instant) :
    (e.webhookFault? channelId = none ∧
      ∃ d, e.webhookDraft alert channelId url now = .ok d) ∨
    ∃ error, e.webhookFault? channelId = some error ∧
      e.webhookDraft alert channelId url now = .error error := by
  obtain ⟨channel, hget, rfl, -⟩ := get?_of_spec? hspec
  have htype' : ¬ channel.channelType ≠ .webhook := not_not_intro htype
  unfold webhookFault? webhookDraft enabledChannel checkTemplate hasVariant
  simp only [hspec, hget, ht, Option.any_some]
  -- The draft asks for the switch of the channel first, and for the variant of the template then.
  cases channel.spec.enabled with
  | false => exact .inr ⟨_, rfl, rfl⟩
  | true =>
    cases hsupports : t.supports .webhook with
    | false =>
      refine .inr ⟨_, rfl, ?_⟩
      simp only [if_true, bind, Except.bind, htype', if_false]
      rfl
    | true =>
      refine .inl ⟨rfl, ?_⟩
      simp only [if_true, bind, Except.bind, htype', if_false]
      exact ⟨_, rfl⟩

/-- An action writes no line if the channel that it calls is enabled and the template for alerts
serves webhooks. -/
theorem faultLine?_eq_none {e : Engine} (hvariant : e.hasVariant .webhook = true) {a : Action}
    (henabled : ∀ channelId url, a = .webhookCall channelId url →
      (e.spec? channelId).any ChannelSpec.enabled = true) (rule : Rule) :
    e.faultLine? rule a = none := by
  cases a with
  | webhookCall channelId url =>
    have hfault : e.webhookFault? channelId = none := by
      unfold webhookFault?
      rw [if_pos (henabled channelId url rfl), if_pos hvariant]
    rw [faultLine?, hfault]
    rfl
  | createAlert => rfl
  | notify => rfl
  | escalate => rfl

end Engine

namespace Server

variable {e₀ : Engine} {past : List Happening} {s : Server}

/-! ## Faults -/

/-- In a run the policy is the same throughout. -/
theorem RunsFrom.policy_eq (h : s.RunsFrom e₀) : s.engine.policy = e₀.policy := by
  obtain ⟨turns, hrun⟩ := h
  rw [← hrun]
  exact e₀.policy_run turns

/-- In a run, calls fail of the same faults throughout. -/
theorem RunsFrom.webhookFault?_eq (h : s.RunsFrom e₀) (h₀ : e₀.Sound e₀ past)
    (channelId : String) : s.engine.webhookFault? channelId = e₀.webhookFault? channelId := by
  obtain ⟨past', hsound⟩ := h₀.of_reaches h
  unfold Engine.webhookFault? Engine.hasVariant
  rw [hsound.spec?, hsound.templates, h.policy_eq]

/-- A webhook call of a server fails of the fault that there was first. -/
theorem RunsFrom.callWebhook_spec (h : s.RunsFrom e₀) (h₀ : e₀.Sound e₀ past)
    (ht : (e₀.templates.get? e₀.policy.alertTemplateId).isSome = true) {channelId : String}
    (hknown : ∃ spec, e₀.spec? channelId = some spec ∧ spec.channelType = .webhook)
    (alert : Alert) (url : Option String) :
    (e₀.webhookFault? channelId = none ∧
      ∃ m, (s.callWebhook alert channelId url).2 = .ok m) ∨
    ∃ error, e₀.webhookFault? channelId = some error ∧
      (s.callWebhook alert channelId url).2 = .error error := by
  obtain ⟨spec, hspec, htype⟩ := hknown
  obtain ⟨t, ht⟩ := Option.isSome_iff_exists.mp ht
  rw [← h.webhookFault?_eq h₀]
  obtain ⟨past', hsound⟩ := h₀.of_reaches h
  have hspec' : s.engine.spec? channelId = some spec := (hsound.spec? channelId).trans hspec
  have ht' : s.engine.templates.get? s.engine.policy.alertTemplateId = some t := by
    rw [hsound.templates, h.policy_eq, ht]
  rw [callWebhook_snd]
  unfold Engine.sendWebhook
  rcases Engine.webhookDraft_spec hspec' htype ht' alert url s.now with
    ⟨hfault, d, hdraft⟩ | ⟨error, hfault, hdraft⟩
  · rw [hdraft]
    exact .inl ⟨hfault, _, rfl⟩
  · rw [hdraft]
    exact .inr ⟨error, hfault, rfl⟩

/-- An action writes a line if it is a webhook call with a fault. -/
theorem RunsFrom.act_failedActions (h : s.RunsFrom e₀) (h₀ : e₀.Sound e₀ past)
    (ht : (e₀.templates.get? e₀.policy.alertTemplateId).isSome = true) {a : Action}
    (hknown : e₀.KnowsWebhook a) (rule : Rule) (alert : Alert) :
    (s.act rule alert a).2.failedActions = (e₀.faultLine? rule a).toList := by
  cases a with
  | webhookCall channelId url =>
    rw [act_webhookCall, Engine.faultLine?]
    rcases h.callWebhook_spec h₀ ht hknown alert url with
      ⟨hfault, m, hcalled⟩ | ⟨error, hfault, hcalled⟩
    · rw [hfault, hcalled]
      rfl
    · rw [hfault, hcalled]
      rfl
  | createAlert => rfl
  | notify => rfl
  | escalate => rfl

/-- The lines of the actions of a rule. -/
theorem RunsFrom.actAll_failedActions (h : s.RunsFrom e₀) (h₀ : e₀.Sound e₀ past)
    (ht : (e₀.templates.get? e₀.policy.alertTemplateId).isSome = true) {actions : List Action}
    (hknown : ∀ a ∈ actions, e₀.KnowsWebhook a) (rule : Rule) (alert : Alert) :
    (Server.actAll rule alert s actions).2.failedActions =
      actions.filterMap (e₀.faultLine? rule) := by
  induction actions generalizing s with
  | nil => rfl
  | cons a rest ih =>
    have hfirst := h.act_failedActions h₀ ht (hknown a List.mem_cons_self) rule alert
    have hrest := ih (h.act h₀ rule alert a) fun b hb => hknown b (List.mem_cons_of_mem _ hb)
    show (s.act rule alert a).2.failedActions ++
      (Server.actAll rule alert (s.act rule alert a).1 rest).2.failedActions = _
    rw [hfirst, hrest, List.filterMap_cons]
    cases e₀.faultLine? rule a <;> rfl

/-- The lines of the responses to an event. -/
theorem RunsFrom.respondAll_failedActions (h : s.RunsFrom e₀) (h₀ : e₀.Sound e₀ past)
    (ht : (e₀.templates.get? e₀.policy.alertTemplateId).isSome = true) {rules : List Rule}
    (hknown : ∀ rule ∈ rules, ∀ a ∈ rule.actions, e₀.KnowsWebhook a) (event : Event) :
    (respondAll event s rules).2.failedActions =
      rules.flatMap fun rule => rule.actions.filterMap (e₀.faultLine? rule) := by
  induction rules generalizing s with
  | nil => rfl
  | cons rule rest ih =>
    have hraised : (s.raise fun id => rule.detect event id s.now).1.RunsFrom e₀ := h
    have hfirst := hraised.actAll_failedActions h₀ ht (hknown rule List.mem_cons_self) rule
      (rule.detect event s.nextAlertId s.now)
    have hrest := ih (hraised.actAll h₀ rule (rule.detect event s.nextAlertId s.now) rule.actions)
      fun r hr => hknown r (List.mem_cons_of_mem _ hr)
    rw [List.flatMap_cons, ← hfirst, ← hrest]
    rfl

/-- The lines of an event, where the webhook channels that rules call are there. -/
theorem RunsFrom.handleEvent_failedActions (h : s.RunsFrom e₀) (h₀ : e₀.Sound e₀ past)
    (ht : (e₀.templates.get? e₀.policy.alertTemplateId).isSome = true) (horderly : s.Orderly)
    (hknown : ∀ rule ∈ s.rules.definitions, ∀ a ∈ rule.actions, e₀.KnowsWebhook a)
    (event : Event) :
    (s.handleEvent event).2.failedActions =
      (s.rules.due event s.now).flatMap fun rule =>
        rule.actions.filterMap (e₀.faultLine? rule) := by
  have hprocessed : Server.RunsFrom { s with rules := (s.rules.process event s.now).1 } e₀ := h
  rw [← horderly.rules.process_due event s.now]
  refine hprocessed.respondAll_failedActions h₀ ht (fun rule hrule => ?_) event
  have hdue : rule ∈ (s.rules.process event s.now).2.map fun t => t.loaded.rule := hrule
  rw [horderly.rules.process_due event s.now] at hdue
  exact hknown rule (List.mem_filter.mp hdue).1

/-! ## Requests -/

/-- Whether a request changes the definitions of rules. -/
def Request.changesRules : Request → Bool
  | .changeRules _ => true
  | _ => false

/-- Whatever is asked of a server, its engine goes on by turns. -/
theorem RunsFrom.take (h : s.RunsFrom e₀) (h₀ : e₀.Sound e₀ past) (request : Request) :
    (s.take request).RunsFrom e₀ := by
  cases request with
  | handle event => exact h.handleEvent h₀ event
  | raise => exact h
  | notify alert recipientIds priority => exact h.notify h₀ alert recipientIds priority
  | callWebhook alert channelId url => exact h.callWebhook h₀ alert channelId url
  | sendCustom recipientId channelId templateId context priority =>
    exact h.sendCustom h₀ recipientId channelId templateId context priority
  | changeRules => exact h
  | upsertRecipient recipient => exact h.upsertRecipient recipient
  | removeRecipient id => exact h.removeRecipient id
  | markUnhealthy channelId => exact h.markUnhealthy channelId
  | restore channelId => exact h.restore channelId
  | cancel id => exact h.cancel id
  | prune before => exact h.prune before
  | statistics => exact h.statistics
  | markRead => exact h
  | takeHandedOver => exact h
  | tick => exact h.tick h₀
  | advance ms => exact h.advance h₀ ms
  | start => exact h.start
  | stop => exact h.stop h₀
  | maintain retentionSecs statsSecs => exact h.maintain h₀ retentionSecs statsSecs

/-- Whatever is asked of a server, it runs on. -/
theorem RunsFrom.takeAll (h : s.RunsFrom e₀) (h₀ : e₀.Sound e₀ past) (requests : List Request) :
    (s.takeAll requests).RunsFrom e₀ :=
  List.foldlRecOn requests Server.take (motive := fun s => s.RunsFrom e₀) h
    fun _ hs request _ => hs.take h₀ request

/-- A request that does not change rules leaves their definitions as they are. -/
theorem definitions_take (s : Server) {request : Request} (hr : request.changesRules = false) :
    (s.take request).rules.definitions = s.rules.definitions := by
  have hwaits {s' : Server} (h : s.Waits s') : s'.rules.definitions = s.rules.definitions :=
    congrArg RuleSet.definitions h.rules
  cases request with
  | handle event =>
    have hkept := (keeps_respondAll { s with rules := (s.rules.process event s.now).1 } event
      ((s.rules.process event s.now).2.map fun t => t.loaded.rule)).1
    exact (congrArg RuleSet.definitions hkept).trans (s.rules.definitions_process event s.now)
  | changeRules => simp [Request.changesRules] at hr
  | notify => exact hwaits (s.waits_notify _ _ _)
  | callWebhook => exact hwaits (s.waits_callWebhook _ _ _)
  | sendCustom => exact hwaits (s.waits_sendCustom _ _ _ _ _)
  | tick => exact hwaits (s.waits_drainBy .everyLane)
  | advance => exact hwaits (s.waits_await _)
  | start => exact hwaits s.waits_start
  | stop => exact hwaits s.waits_stop
  | maintain => exact hwaits (s.waits_maintain _ _)
  | _ => rfl

/-- Only requests that change rules change their definitions. -/
theorem definitions_takeAll (s : Server) {requests : List Request}
    (hr : ∀ request ∈ requests, request.changesRules = false) :
    (s.takeAll requests).rules.definitions = s.rules.definitions := by
  refine List.foldlRecOn requests Server.take
    (motive := fun s' => s'.rules.definitions = s.rules.definitions) rfl ?_
  exact fun s' hs' request hmem => (s'.definitions_take (hr request hmem)).trans hs'

end Server

/-! ## Clean reports -/

/-- With a clean report the template for alerts is there, and so are the webhook channels that the
loaded rules call. -/
theorem knowsWebhooks_of_isClean {τ : Type} {plugins : Plugins τ} {config : ServerConfig}
    {idSupply : IdSupply} (hclean : (assemble plugins config idSupply).report.isClean = true) :
    let e := (assemble plugins config idSupply).engine
    (e.templates.get? e.policy.alertTemplateId).isSome = true ∧
      ∀ rule ∈ (assemble plugins config idSupply).rules.definitions, ∀ a ∈ rule.actions,
        e.KnowsWebhook a := by
  intro e
  have hproblems : (assemble plugins config idSupply).report.problems = [] :=
    List.isEmpty_iff.mp hclean
  -- The problems are appended in this order: channels, templates, references of the policy, rules.
  obtain ⟨hrest, hrules⟩ := List.append_eq_nil_iff.mp hproblems
  obtain ⟨hrest, -⟩ := List.append_eq_nil_iff.mp hrest
  obtain ⟨-, htemplates⟩ := List.append_eq_nil_iff.mp hrest
  refine ⟨?_, fun rule hrule a ha => ?_⟩
  · unfold Assembly.templateProblems at htemplates
    split at htemplates
    · next hthere => exact hthere
    · nomatch htemplates
  · obtain ⟨l, hl, rfl⟩ := List.mem_map.mp hrule
    have hnone := List.flatMap_eq_nil_iff.mp (List.flatMap_eq_nil_iff.mp hrules l hl) a ha
    cases a with
    | webhookCall channelId url =>
      -- Of the actions only webhook calls refer to a channel, and this one gave no line.
      unfold Assembly.actionProblems at hnone
      simp only at hnone
      split at hnone
      · next hwebhook =>
        obtain ⟨c, hget, htype⟩ := (Option.any_eq_true _ _).mp hwebhook
        have hspec : e.spec? channelId = some c.spec := congrArg (Option.map Channel.spec) hget
        exact ⟨c.spec, hspec, beq_iff_eq.mp htype⟩
      · nomatch hnone
    | createAlert => trivial
    | notify => trivial
    | escalate => trivial

namespace Server

/-- The webhook calls of the loaded rules of a server fail of the faults that its configuration has,
and nothing else fails. -/
structure CallsAsConfigured (s : Server) (e : Engine) : Prop where
  calls : ∀ rule ∈ s.rules.definitions, ∀ channelId url, .webhookCall channelId url ∈ rule.actions →
    ∀ alert, (s.callWebhook alert channelId url).2.isOk = (e.webhookFault? channelId).isNone
  failed : ∀ event, (s.handleEvent event).2.failedActions =
    (s.rules.due event s.now).flatMap fun rule => rule.actions.filterMap (e.faultLine? rule)
  /-- Nothing fails if the channels are enabled and the template for alerts serves webhooks. -/
  none : (∀ rule ∈ s.rules.definitions, ∀ channelId url,
      .webhookCall channelId url ∈ rule.actions →
        (e.spec? channelId).any ChannelSpec.enabled = true) →
    e.hasVariant .webhook = true → ∀ event, (s.handleEvent event).2.failedActions = []

/-- With a clean report, and whatever was asked of a server that leaves its rules alone, an event
has a failed action for each webhook call of a rule that it sets off whose channel is disabled, or
else for each one if the template for alerts has no variant for webhooks. No other action fails. -/
theorem callsAsConfigured_of_isClean (plugins : Plugins Carrier) (config : ServerConfig)
    (idSupply : IdSupply) (hclean : (assemble plugins config idSupply).report.isClean = true)
    (scripts : List (String × Script)) (outside : Outside) (now : Instant)
    {requests : List Request} (hr : ∀ request ∈ requests, request.changesRules = false) :
    ((ofConfig plugins config scripts outside now idSupply).takeAll requests).CallsAsConfigured
      (assemble plugins config idSupply).engine := by
  have h₀ := assemble_sound plugins config idSupply
  obtain ⟨ht, hknown⟩ := knowsWebhooks_of_isClean hclean
  have hfirst : (ofConfig plugins config scripts outside now idSupply).RunsFrom
      (assemble plugins config idSupply).engine := .refl _
  have hruns := hfirst.takeAll h₀ requests
  have hdefinitions :
      ((ofConfig plugins config scripts outside now idSupply).takeAll
        requests).rules.definitions = (assemble plugins config idSupply).rules.definitions :=
    definitions_takeAll _ hr
  have horderly := takeAll_orderly plugins config scripts outside now idSupply requests
  generalize (ofConfig plugins config scripts outside now idSupply).takeAll requests = s at *
  generalize (assemble plugins config idSupply).engine = e at *
  rw [← hdefinitions] at hknown
  have hfailed := hruns.handleEvent_failedActions h₀ ht horderly hknown
  refine ⟨fun rule hrule channelId url hcall alert => ?_, hfailed,
    fun henabled hvariant event => ?_⟩
  · rcases hruns.callWebhook_spec h₀ ht (hknown rule hrule _ hcall) alert url with
      ⟨hfault, m, hcalled⟩ | ⟨error, hfault, hcalled⟩
    · rw [hfault, hcalled]
      rfl
    · rw [hfault, hcalled]
      rfl
  · -- A rule that is set off is a loaded one, so its calls are among those that are configured.
    rw [hfailed, List.flatMap_eq_nil_iff]
    intro rule hdue
    rw [List.filterMap_eq_nil_iff]
    intro a ha
    refine Engine.faultLine?_eq_none hvariant (fun channelId url hcall => ?_) rule
    exact henabled rule (List.mem_filter.mp hdue).1 channelId url (hcall ▸ ha)

/-- No event leaves a failed action in a server for a configuration whose report is clean, as long
as its rules are left alone. -/
def NeverFails (config : ServerConfig) : Prop :=
  (assemble Carrier.plugins config).report.isClean = true →
    ∀ scripts outside now, ∀ requests : List Request,
      (∀ request ∈ requests, request.changesRules = false) → ∀ event,
        (((ofConfig Carrier.plugins config scripts outside now).takeAll requests).handleEvent
          event).2.failedActions = []

/-- A webhook that is called for each fire, and a template for alerts that serves mail. -/
def mailedAlerts : ServerConfig :=
  { ServerConfig.standard with
    dispatch := { Policy.standard with alertTemplateId := "brief" }
    channels := [{
      id := "hook", name := "Hook", channelType := .webhook, enabled := true
      config := .object [], retryPolicy := .standard, rateLimit := .standard
      supportedPriorities := [], retryClassification := .all }]
    templates := [{
      id := "brief", name := "Brief"
      channels := [(.email, ⟨none, "Fire", .text⟩)], conditionals := []
      personalization := Template.plain }]
    rules := [{
      id := "fire", name := "Fire", description := none, category := "safety", version := 1
      priority := .medium, enabled := true, eventPattern := "*"
      condition := .comparison "kind" .eq (.string "fire"), actions := [.webhookCall "hook" none]
      cooldownSecs := 0 }] }

/-- The same with the standard template for alerts, which serves all channel types. -/
def postedAlerts : ServerConfig := { mailedAlerts with dispatch := Policy.standard }

/-- An event of the kind that the example rules watch for. -/
def fire : Event := ⟨"e1", "smoke", .epoch, .object [("kind", .string "fire")]⟩

/-- Where the template for alerts serves webhooks, no action fails. -/
theorem postedAlerts_callsAsConfigured :
    ((ofConfig Carrier.plugins postedAlerts [] .silent .epoch).takeAll
      [.handle fire]).CallsAsConfigured (assemble Carrier.plugins postedAlerts).engine :=
  callsAsConfigured_of_isClean Carrier.plugins postedAlerts .numbered (by decide +kernel) [] .silent
    .epoch (by simp [Request.changesRules])

/-- The template has no variant for webhooks, and the report does not say so. -/
theorem mailedAlerts_fails : ¬ NeverFails mailedAlerts := by
  intro hnever
  have hclean : (assemble Carrier.plugins mailedAlerts).report.isClean = true := by decide +kernel
  have hnone := hnever hclean [] .silent .epoch [] (by simp) fire
  have hsome : ((ofConfig Carrier.plugins mailedAlerts [] .silent .epoch).handleEvent
      fire).2.failedActions ≠ [] := by decide +kernel
  exact hsome hnone

end Server

end Klaxon
