import Klaxon.Proofs.Server.Responses

/-!
# Failed requests leave no trace

A request is checked to its end before anything is stored: what is to become of it is a `Draft`, and
only a draft that passed all checks is submitted. So a request that gives an error leaves the server
as it was, down to the last counter, and one that succeeds stores one message
(`Server.Answered`).

It follows that a webhook call that fails does nothing but write its line. `withoutFailures` goes
through the responses to an event as the server does and leaves such calls out. Every action that is
left finds the same server as before, so that nothing else changes
(`respondAll_withoutFailures`).
-/

namespace Klaxon

namespace Engine

/-- An engine with one more message, which is new and waits in its lane. -/
structure Queued (e : Engine) (m : Message) (e' : Engine) : Prop where
  isNew : m.IsNew
  /-- Nothing was known of its id. -/
  unknown : e.At m.id ⟨none, none⟩
  eq : e' = { e with
    messages := e.messages ++ [m], lanes := e.lanes.push m.priority m.id, made := e.made + 1 }

variable {e₀ e : Engine} {past : List Happening} {now : Instant}

/-- A message that is due at once goes to its lane. -/
theorem Sound.accept_queued (h : Sound e₀ e past) {d : Draft} (hd : d.scheduledAt = now) :
    e.Queued (e.accept d now).2 (e.accept d now).1 := by
  have hdue : ¬ now < d.scheduledAt := by
    rw [hd]
    exact Int.lt_irrefl _
  rw [accept_snd]
  refine ⟨⟨rfl, rfl, rfl⟩, h.nextId_unused.1, ?_⟩
  unfold Engine.accept
  simp only [hdue, if_false]
  rfl

/-- A draft that is due at once is refused without a trace, or its message waits in its lane. -/
theorem Sound.submit_spec (h : Sound e₀ e past) {draft : Except DispatchError Draft}
    (hd : ∀ d, draft = .ok d → d.scheduledAt = now) :
    (∃ error, e.submit draft now = (e, .error error)) ∨
      ∃ m e', e.Queued m e' ∧ e.submit draft now = (e', .ok m) := by
  cases draft with
  | error error => exact .inl ⟨error, rfl⟩
  | ok d => exact .inr ⟨_, _, h.accept_queued (hd d rfl), rfl⟩

/-- A message that cannot be cancelled stays as it is, and so does all else. -/
theorem cancel_eq_of_error {id : String} {error : DispatchError}
    (h : (e.cancel id).2 = .error error) : (e.cancel id).1 = e := by
  unfold cancel at h ⊢
  cases hm : e.message? id with
  | none => rfl
  | some m =>
    cases hc : m.cancel with
    | error error' => simp only [hc]
    | ok m' =>
      rw [hm] at h
      simp only [hc] at h
      nomatch h

end Engine

namespace Server

/-! ## Requests for one message -/

/-- What a request for one message can come to: an error and nothing else, or a message that waits
in its lane before the server goes on. -/
inductive Answered (s : Server) : Server × Except DispatchError Message → Prop where
  | refused (error : DispatchError) : Answered s (s, .error error)
  | queued {m : Message} {e : Engine} (h : s.engine.Queued m e) :
      Answered s ({ s with engine := e }.afterNew m.priority [m], .ok m)

/-- A request is answered if its message is due at once. -/
theorem answered_afterRequest {s : Server} {e₀ : Engine} {past : List Happening}
    (h : e₀.Sound s.engine past) {draft : Except DispatchError Engine.Draft}
    (hd : ∀ d, draft = .ok d → d.scheduledAt = s.now) :
    s.Answered (s.afterRequest (s.engine.submit draft s.now)) := by
  rcases h.submit_spec hd with ⟨error, hrefused⟩ | ⟨m, e', hqueued, haccepted⟩
  · rw [hrefused]
    exact .refused error
  · rw [haccepted]
    exact .queued hqueued

/-! ## Webhook calls that fail -/

/-- The actions of a rule without the webhook calls that fail when their turn comes. -/
def succeeding (rule : Rule) (alert : Alert) (s : Server) (actions : List Action) : List Action :=
  ((takenFor rule alert s actions).filter fun t => !t.hasFailed).map Taken.action

/-- Rules without the webhook calls that fail when their turn comes. -/
def withoutFailures (event : Event) : Server → List Rule → List Rule
  | _, [] => []
  | s, rule :: rest =>
    let (raised, alert) := s.raise fun id => rule.detect event id s.now
    { rule with actions := succeeding rule alert raised rule.actions } ::
      withoutFailures event (respond event s rule).1 rest

/-- What came of something, but for the actions that could not be taken. -/
def Outcome.withoutFailed (o : Outcome) : Outcome := { o with failedActions := [] }

/-- An action that failed was a webhook call, and did nothing but write a line. -/
theorem Taken.hasFailed_spec {t : Taken} (h : t.hasFailed = true) :
    (∃ channelId url, t.action = .webhookCall channelId url) ∧
      ∃ line, t.server.act t.rule t.alert t.action = (t.server, ⟨[], [], [line]⟩) := by
  obtain ⟨s, rule, alert, action⟩ := t
  cases action with
  | webhookCall channelId url =>
    refine ⟨⟨channelId, url, rfl⟩, ?_⟩
    unfold hasFailed at h
    unfold act callWebhook Engine.sendWebhook Engine.submit at *
    simp only at h ⊢
    -- The draft decides: with an error nothing is stored, and without one the call has not failed.
    cases hdraft : s.engine.webhookDraft alert channelId url s.now with
    | error error => exact ⟨failedWebhook rule channelId error, rfl⟩
    | ok d =>
      rw [hdraft] at h
      nomatch h
  | createAlert => nomatch h
  | notify => nomatch h
  | escalate => nomatch h

/-- An action that was taken without failure writes no line. -/
theorem Taken.failedActions_eq_nil {t : Taken} (h : t.hasFailed = false) :
    t.outcome.failedActions = [] := by
  refine List.eq_nil_of_length_eq_zero ?_
  rw [t.outcome_spec.2, h]
  rfl

section

variable {rule : Rule} {alert : Alert} {s : Server}

/-- A first action that fails is left out, and the others find the server as it was. -/
theorem succeeding_cons_of_hasFailed {a : Action} {rest : List Action}
    (h : (⟨s, rule, alert, a⟩ : Taken).hasFailed = true) :
    succeeding rule alert s (a :: rest) = succeeding rule alert s rest := by
  obtain ⟨-, line, hact⟩ := Taken.hasFailed_spec h
  have hsame : (s.act rule alert a).1 = s := congrArg Prod.fst hact
  rw [succeeding, takenFor, List.filter_cons_of_neg (by simp [h]), hsame]
  rfl

/-- A first action that does not fail stays. -/
theorem succeeding_cons {a : Action} {rest : List Action}
    (h : (⟨s, rule, alert, a⟩ : Taken).hasFailed = false) :
    succeeding rule alert s (a :: rest) =
      a :: succeeding rule alert (s.act rule alert a).1 rest := by
  rw [succeeding, takenFor, List.filter_cons_of_pos (by simp [h]), List.map_cons]
  rfl

/-- What is not looked for in webhook calls is found as before. -/
theorem findSome?_succeeding {α : Type} {f : Action → Option α}
    (hf : ∀ channelId url, f (.webhookCall channelId url) = none) (actions : List Action) :
    (succeeding rule alert s actions).findSome? f = actions.findSome? f := by
  induction actions generalizing s with
  | nil => rfl
  | cons a rest ih =>
    cases hfailed : (⟨s, rule, alert, a⟩ : Taken).hasFailed with
    | true =>
      obtain ⟨⟨channelId, url, hcall⟩, -⟩ := Taken.hasFailed_spec hfailed
      obtain rfl : a = .webhookCall channelId url := hcall
      rw [succeeding_cons_of_hasFailed hfailed, ih, List.findSome?_cons, hf]
    | false => rw [succeeding_cons hfailed, List.findSome?_cons, List.findSome?_cons, ih]

/-- The alert of a rule does not depend on its webhook calls. -/
theorem detect_succeeding (event : Event) (id : String) (now : Instant) :
    ({ rule with actions := succeeding rule alert s rule.actions } : Rule).detect event id now =
      rule.detect event id now := by
  have htemplates :
      ({ rule with actions := succeeding rule alert s rule.actions } : Rule).alertTemplates =
        rule.alertTemplates := by
    unfold Rule.alertTemplates
    rw [findSome?_succeeding fun _ _ => rfl]
  unfold Rule.detect
  rw [htemplates]
  rfl

/-- An action asks a rule for nothing but its id. -/
theorem act_withActions (a : Action) (actions : List Action) :
    s.act { rule with actions } alert a = s.act rule alert a := by
  cases a <;> rfl

/-- The actions that a rule lists do not matter to the actions that are taken for it. -/
theorem actAll_withActions (taken actions : List Action) :
    actAll { rule with actions } alert s taken = actAll rule alert s taken := by
  induction taken generalizing s with
  | nil => rfl
  | cons a rest ih => simp only [actAll, act_withActions, ih]

/-- The actions of a rule come to the same without those that fail. -/
theorem actAll_succeeding (actions : List Action) :
    actAll rule alert s (succeeding rule alert s actions) =
      ((actAll rule alert s actions).1, (actAll rule alert s actions).2.withoutFailed) := by
  induction actions generalizing s with
  | nil => rfl
  | cons a rest ih =>
    cases hfailed : (⟨s, rule, alert, a⟩ : Taken).hasFailed with
    | true =>
      obtain ⟨-, line, hact⟩ := Taken.hasFailed_spec hfailed
      -- The call is left out on one side, and on the other it only writes a line that is not
      -- compared.
      have hact : s.act rule alert a = (s, ⟨[], [], [line]⟩) := hact
      rw [succeeding_cons_of_hasFailed hfailed, ih]
      simp only [actAll, hact]
      rfl
    | false =>
      have hline : (s.act rule alert a).2.failedActions = [] := Taken.failedActions_eq_nil hfailed
      rw [succeeding_cons hfailed]
      simp only [actAll, ih, Outcome.withoutFailed, Outcome.append, hline, List.append_nil]

end

/-- The response of a rule is the same without the webhook calls that fail. -/
theorem respond_succeeding (event : Event) (s : Server) (rule : Rule) :
    respond event s { rule with
        actions := succeeding rule (rule.detect event s.nextAlertId s.now)
          { s with alertsMade := s.alertsMade + 1 } rule.actions } =
      ((respond event s rule).1, (respond event s rule).2.withoutFailed) := by
  simp only [respond, raise, detect_succeeding, actAll_withActions, actAll_succeeding]
  rfl

/-- Without the webhook calls that fail, the responses to an event lead to the same server and come
to the same alerts and messages, and no action fails. -/
theorem respondAll_withoutFailures (event : Event) (s : Server) (rules : List Rule) :
    respondAll event s (withoutFailures event s rules) =
      ((respondAll event s rules).1, (respondAll event s rules).2.withoutFailed) := by
  induction rules generalizing s with
  | nil => rfl
  | cons rule rest ih =>
    simp only [withoutFailures, respondAll, raise, respond_succeeding, ih]
    rfl

/-! ## Every server -/

/-- Requests that a server refuses leave no trace. -/
structure LeavesNoTrace (s : Server) : Prop where
  sendCustom : ∀ recipientId channelId templateId context priority,
    s.Answered (s.sendCustom recipientId channelId templateId context priority)
  callWebhook : ∀ alert channelId url, s.Answered (s.callWebhook alert channelId url)
  cancel : ∀ id error, (s.cancel id).2 = .error error → (s.cancel id).1 = s
  /-- The responses to an event are the same without the webhook calls that fail. -/
  responses : ∀ event,
    let processed : Server := { s with rules := (s.rules.process event s.now).1 }
    let triggered := (s.rules.process event s.now).2.map fun t => t.loaded.rule
    respondAll event processed (withoutFailures event processed triggered) =
      ((s.handleEvent event).1, (s.handleEvent event).2.withoutFailed)

/-- Whatever its engine has been through, a server that refuses a request stays as it was, and one
that grants it stores and queues one message. So the webhook calls that fail might as well be left
out of the rules that an event sets off. -/
theorem leavesNoTrace_of_run (s₀ : Server) (registry : Registry) (templates : TemplateStore)
    (directory : Directory) (policy : Policy) (idSupply : IdSupply)
    (turns : List (Instant × Turn)) :
    LeavesNoTrace
      { s₀ with
        engine := (Engine.create registry templates directory policy idSupply).run turns } := by
  have hsound := Engine.run_sound registry templates directory policy idSupply turns
  generalize hs : ({ s₀ with
    engine := (Engine.create registry templates directory policy idSupply).run turns } : Server) = s
  have hsound : (Engine.create registry templates directory policy idSupply).Sound s.engine
      ((Engine.create registry templates directory policy idSupply).history turns) := hs ▸ hsound
  refine ⟨fun recipientId channelId templateId context priority => ?_,
    fun alert channelId url => ?_, fun id error herror => ?_, fun event => ?_⟩
  · -- Neither kind of request is held back: its message is due at once.
    exact answered_afterRequest hsound fun d hd => (Engine.customDraft_eq_ok hd).1
  · exact answered_afterRequest hsound fun d hd => (Engine.webhookDraft_eq_ok hd).1
  · have hengine : (s.engine.cancel id).1 = s.engine := Engine.cancel_eq_of_error herror
    show { s with engine := (s.engine.cancel id).1 } = s
    rw [hengine]
  · exact respondAll_withoutFailures event _ _

end Server

end Klaxon
