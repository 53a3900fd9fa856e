import Mathlib.Data.List.Forall2
import Klaxon.Proofs.Rule.Cooldown
import Klaxon.Proofs.Server.Requests

/-!
# Responses to events

`handleEvent_responded` says what comes of an event, whatever was asked of the server before. The
rules that the event sets off raise one alert each, in their order, and their actions are taken one
after the other. Every message was made by one of these actions, is about the alert of its rule, and
is what the action asks for; every webhook call that gave an error is reported.

A server changes with every action that it takes, so what an action does depends on the ones
before. `takenOn` goes through the actions as the server does and notes each of them with the server
that took it. `Responded` is about any stretch of a response, and it goes on from one rule to the
next (`Responded.append`).
-/

namespace Klaxon

/-- Whether an alert is that of a rule that an event set off. -/
structure Alert.IsOf (alert : Alert) (rule : Rule) (event : Event) : Prop where
  ruleId : alert.ruleId = some rule.id
  eventId : alert.eventId = some event.id
  severity : alert.severity = rule.priority

/-- The alert that a rule raises is that of the rule. -/
theorem Rule.isOf_detect (r : Rule) (event : Event) (id : String) (now : Instant) :
    (r.detect event id now).IsOf r event :=
  ⟨rfl, rfl, rfl⟩

/-- Whether a message is about an alert, for one of some recipients and at a priority. -/
structure Message.Addresses (m : Message) (alert : Alert) (recipientIds : List String)
    (priority : Priority) : Prop where
  alertId : m.alertId = some alert.id
  recipient : m.recipient.id ∈ recipientIds
  priority : m.priority = priority

namespace Engine

/-! ## The messages of one request -/

/-- What holds of the messages of each item holds of all, as long as the directory stays. -/
theorem collect_forall {α : Type} {make : Engine → α → Engine × List Message} {P : Message → Prop}
    {directory : Directory} (items : List α)
    (h : ∀ (e : Engine), ∀ a ∈ items, e.directory = directory →
      (make e a).1.directory = directory ∧ ∀ m ∈ (make e a).2, P m)
    {e : Engine} (hd : e.directory = directory) :
    (collect make e items).1.directory = directory ∧ ∀ m ∈ (collect make e items).2, P m := by
  induction items generalizing e with
  | nil => exact ⟨hd, fun m hm => nomatch hm⟩
  | cons a rest ih =>
    obtain ⟨hkept, hfirst⟩ := h e a List.mem_cons_self hd
    obtain ⟨hend, hrest⟩ := ih (fun e a ha => h e a (List.mem_cons_of_mem _ ha)) hkept
    refine ⟨hend, fun m hm => ?_⟩
    rcases List.mem_append.mp hm with hm | hm
    · exact hfirst m hm
    · exact hrest m hm

/-- The message of one offer is about its alert, for its recipient. -/
theorem notifyOver_addresses (e : Engine) (alert : Alert) (recipient : Recipient)
    (priority : Priority) (now : Instant) (channelType : ChannelType) :
    ∀ m ∈ (e.notifyOver alert recipient priority now channelType).2,
      m.Addresses alert [recipient.id] priority := by
  unfold notifyOver
  split
  · exact fun m hm => nomatch hm
  · split
    · exact fun m hm => nomatch hm
    · intro m hm
      rw [List.mem_singleton.mp hm, accept_snd]
      exact ⟨rfl, List.mem_singleton_self _, rfl⟩

/-- The messages of a fan-out are about its alert, for recipients of its list and at its
priority. -/
theorem fanOut_addresses {e : Engine} (hkeyed : e.directory.IsKeyed) (alert : Alert)
    (recipientIds : List String) (priority : Priority) (now : Instant) :
    ∀ m ∈ (e.fanOut alert recipientIds priority now).2,
      m.Addresses alert recipientIds priority := by
  refine (collect_forall recipientIds (fun e' id hid hd => ?_) rfl).2
  unfold notifyRecipient
  cases hget : e'.directory.get? id with
  | none => exact ⟨hd, fun m hm => nomatch hm⟩
  | some recipient =>
    have hname : recipient.id = id :=
      Directory.IsKeyed.id_of_get? (hd ▸ hkeyed) hget
    simp only
    split
    · exact ⟨hd, fun m hm => nomatch hm⟩
    · -- Each offer reads the directory and leaves it as it is, which is what the recipients are
      -- found in.
      have hoffers : ∀ (e'' : Engine), ∀ t ∈ recipient.channelsFor alert.severity,
          e''.directory = e.directory →
          (e''.notifyOver alert recipient priority now t).1.directory = e.directory ∧
            ∀ m ∈ (e''.notifyOver alert recipient priority now t).2,
              m.Addresses alert [recipient.id] priority := by
        intro e'' t _ hd'
        have hleaves := e''.turn_leaves now (.offer alert recipient priority t)
        exact ⟨(hleaves.directory (by simp)).trans hd', e''.notifyOver_addresses _ _ _ _ _⟩
      obtain ⟨hkept, hmessages⟩ := collect_forall _ hoffers hd
      refine ⟨hkept, fun m hm => ?_⟩
      obtain ⟨halert, hrecipient, hpriority⟩ := hmessages m hm
      have hid' : m.recipient.id = id := (List.mem_singleton.mp hrecipient).trans hname
      exact ⟨halert, hid' ▸ hid, hpriority⟩

/-- The message of a webhook call is about its alert and goes over its channel. -/
theorem sendWebhook_eq_ok {e : Engine} {alert : Alert} {channelId : String} {url : Option String}
    {now : Instant} {m : Message} (h : (e.sendWebhook alert channelId url now).2 = .ok m) :
    m.alertId = some alert.id ∧ m.channelId = channelId := by
  unfold sendWebhook submit at h
  cases hdraft : e.webhookDraft alert channelId url now with
  | error error =>
    rw [hdraft] at h
    nomatch h
  | ok d =>
    rw [hdraft] at h
    obtain rfl : (e.accept d now).2 = m := Except.ok.inj h
    obtain ⟨-, halert, hchannel, -⟩ := webhookDraft_eq_ok hdraft
    rw [accept_snd]
    exact ⟨halert, hchannel⟩

end Engine

namespace Server

/-! ## Actions that were taken -/

/-- An action that was taken. -/
structure Taken where
  /-- The server that took it, as it was before. -/
  server : Server
  rule : Rule
  /-- The alert that the rule raised. -/
  alert : Alert
  action : Action

namespace Taken

/-- What came of an action. -/
def outcome (t : Taken) : Outcome := (t.server.act t.rule t.alert t.action).2

/-- Whether an action was a webhook call that gave an error. -/
def hasFailed (t : Taken) : Bool :=
  match t.action with
  | .webhookCall channelId url => !(t.server.callWebhook t.alert channelId url).2.isOk
  | _ => false

/-- Whether an action asks for a message. -/
def Justifies (t : Taken) (policy : Policy) (m : Message) : Prop :=
  m.alertId = some t.alert.id ∧
    match t.action with
    | .createAlert .. => False
    | .notify recipients =>
      m.recipient.id ∈ recipients ∧ m.priority = policy.priorityFor t.rule.priority
    | .escalate recipients priority => m.recipient.id ∈ recipients ∧ m.priority = priority
    | .webhookCall channelId _ => m.channelId = channelId ∧ t.outcome.messages = [m]

end Taken

/-- The actions of a rule as they are taken for its alert. -/
def takenFor (rule : Rule) (alert : Alert) : Server → List Action → List Taken
  | _, [] => []
  | s, a :: rest => ⟨s, rule, alert, a⟩ :: takenFor rule alert (s.act rule alert a).1 rest

/-- The actions of a rule as they are taken for the alert that it raises. -/
def takenBy (event : Event) (s : Server) (rule : Rule) : List Taken :=
  let (raised, alert) := s.raise fun id => rule.detect event id s.now
  takenFor rule alert raised rule.actions

/-- The actions of rules as they are taken, one rule after the other. -/
def takenOn (event : Event) : Server → List Rule → List Taken
  | _, [] => []
  | s, rule :: rest => takenBy event s rule ++ takenOn event (respond event s rule).1 rest

/-- The actions that a server takes on an event. -/
def taken (s : Server) (event : Event) : List Taken :=
  takenOn event { s with rules := (s.rules.process event s.now).1 } (s.rules.due event s.now)

/-- A server with a supply of ids, a number of alerts and a policy responded to an event: the rules
that it set off, the actions that were taken, and what came of them. -/
structure Responded (event : Event) (idSupply : IdSupply) (made : Nat) (policy : Policy)
    (rules : List Rule) (taken : List Taken) (outcome : Outcome) : Prop where
  /-- There is one alert for each rule, in the order of the rules. -/
  alerts : List.Forall₂ (fun rule alert => alert.IsOf rule event) rules outcome.alerts
  /-- The alerts are new. -/
  ids : outcome.alerts.map Alert.id =
    (List.range rules.length).map fun i => idSupply.id .alert (made + i + 1)
  /-- The actions of the rules are taken, each for the alert of its rule. -/
  actions : taken.map (fun t => (t.rule, t.alert, t.action)) =
    (rules.zip outcome.alerts).flatMap fun (rule, alert) =>
      rule.actions.map fun a => (rule, alert, a)
  /-- The messages are those of the actions, in their order. -/
  messages : outcome.messages = taken.flatMap fun t => t.outcome.messages
  justified : ∀ t ∈ taken, ∀ m ∈ t.outcome.messages, t.Justifies policy m
  failed : outcome.failedActions.length = taken.countP Taken.hasFailed

/-! ## One action -/

/-- What comes of a webhook call is its message, or a line with its error. -/
theorem act_webhookCall (s : Server) (rule : Rule) (alert : Alert) (channelId : String)
    (url : Option String) :
    (s.act rule alert (.webhookCall channelId url)).2 =
      match (s.callWebhook alert channelId url).2 with
      | .ok message => ⟨[], [message], []⟩
      | .error e => ⟨[], [], [failedWebhook rule channelId e]⟩ := by
  unfold act
  simp only
  generalize s.callWebhook alert channelId url = called
  obtain ⟨s', result⟩ := called
  cases result <;> rfl

/-- A webhook call gives what the engine gives. -/
theorem callWebhook_snd (s : Server) (alert : Alert) (channelId : String) (url : Option String) :
    (s.callWebhook alert channelId url).2 = (s.engine.sendWebhook alert channelId url s.now).2 := by
  unfold callWebhook afterRequest
  generalize s.engine.sendWebhook alert channelId url s.now = sent
  obtain ⟨e, result⟩ := sent
  cases result <;> rfl

/-- An action raises no alert, and a line is written if it is a webhook call that gave an error. -/
theorem Taken.outcome_spec (t : Taken) :
    t.outcome.alerts = [] ∧ t.outcome.failedActions.length = if t.hasFailed then 1 else 0 := by
  obtain ⟨s, rule, alert, action⟩ := t
  cases action with
  | webhookCall channelId url =>
    rw [outcome, hasFailed, act_webhookCall]
    cases hcalled : (s.callWebhook alert channelId url).2 with
    | ok message => exact ⟨rfl, by simp [hcalled, Except.isOk, Except.toBool]⟩
    | error e => exact ⟨rfl, by simp [hcalled, Except.isOk, Except.toBool]⟩
  | _ => exact ⟨rfl, rfl⟩

/-- The messages of an action are what it asks for. -/
theorem Taken.justifies {t : Taken} (hkeyed : t.server.engine.directory.IsKeyed)
    (hseverity : t.alert.severity = t.rule.priority) :
    ∀ m ∈ t.outcome.messages, t.Justifies t.server.engine.policy m := by
  obtain ⟨s, rule, alert, action⟩ := t
  intro m hm
  cases action with
  | createAlert => nomatch hm
  | notify recipients =>
    have haddresses := Engine.fanOut_addresses hkeyed alert recipients _ s.now m hm
    refine ⟨haddresses.alertId, haddresses.recipient, ?_⟩
    rw [haddresses.priority, hseverity]
  | escalate recipients priority =>
    have haddresses := Engine.fanOut_addresses hkeyed alert recipients priority s.now m hm
    exact ⟨haddresses.alertId, haddresses.recipient, haddresses.priority⟩
  | webhookCall channelId url =>
    have hact := s.act_webhookCall rule alert channelId url
    cases hcalled : (s.callWebhook alert channelId url).2 with
    | error e =>
      rw [outcome, hact, hcalled] at hm
      nomatch hm
    | ok message =>
      rw [outcome, hact, hcalled] at hm
      obtain rfl := List.mem_singleton.mp hm
      rw [hcalled] at hact
      -- The message is the one that the engine made for the call.
      rw [callWebhook_snd] at hcalled
      obtain ⟨halert, hchannel⟩ := Engine.sendWebhook_eq_ok hcalled
      exact ⟨halert, hchannel, congrArg Outcome.messages hact⟩

/-! ## The actions of one rule -/

/-- The actions of a rule are taken in their order, for one alert. -/
theorem map_takenFor (rule : Rule) (alert : Alert) (s : Server) (actions : List Action) :
    (takenFor rule alert s actions).map (fun t => (t.rule, t.alert, t.action)) =
      actions.map fun a => (rule, alert, a) := by
  induction actions generalizing s with
  | nil => rfl
  | cons a rest ih => rw [takenFor, List.map_cons, ih, List.map_cons]

/-- While the actions of a rule are taken, the server only waits. -/
theorem of_mem_takenFor {rule : Rule} {alert : Alert} {s : Server} {actions : List Action}
    {t : Taken} (ht : t ∈ takenFor rule alert s actions) :
    t.rule = rule ∧ t.alert = alert ∧ s.Waits t.server := by
  induction actions generalizing s with
  | nil => nomatch ht
  | cons a rest ih =>
    rcases List.mem_cons.mp ht with rfl | ht
    · exact ⟨rfl, rfl, .refl s⟩
    · obtain ⟨hrule, halert, hwaits⟩ := ih ht
      exact ⟨hrule, halert, (s.waits_act rule alert a).trans hwaits⟩

/-- What comes of the actions of a rule is what comes of each of them. -/
theorem actAll_spec (rule : Rule) (alert : Alert) (s : Server) (actions : List Action) :
    let taken := takenFor rule alert s actions
    let outcome := (actAll rule alert s actions).2
    outcome.alerts = [] ∧ outcome.messages = taken.flatMap (fun t => t.outcome.messages) ∧
      outcome.failedActions.length = taken.countP Taken.hasFailed := by
  induction actions generalizing s with
  | nil => exact ⟨rfl, rfl, rfl⟩
  | cons a rest ih =>
    obtain ⟨halerts, hfailed⟩ := Taken.outcome_spec ⟨s, rule, alert, a⟩
    obtain ⟨halerts', hmessages', hfailed'⟩ := ih (s.act rule alert a).1
    refine ⟨?_, ?_, ?_⟩
    · show (s.act rule alert a).2.alerts ++
        (actAll rule alert (s.act rule alert a).1 rest).2.alerts = []
      rw [halerts', List.append_nil]
      exact halerts
    · show (s.act rule alert a).2.messages ++
        (actAll rule alert (s.act rule alert a).1 rest).2.messages = _
      rw [hmessages', takenFor, List.flatMap_cons]
      rfl
    · show ((s.act rule alert a).2.failedActions ++
        (actAll rule alert (s.act rule alert a).1 rest).2.failedActions).length = _
      rw [List.length_append, hfailed', takenFor, List.countP_cons, Nat.add_comm]
      exact congrArg _ hfailed

/-! ## The rules that an event sets off -/

section

variable {event : Event} {idSupply : IdSupply} {made : Nat} {policy : Policy}

/-- Where no rule is set off, nothing comes of an event. -/
theorem Responded.nil : Responded event idSupply made policy [] [] .nothing where
  alerts := .nil
  ids := rfl
  actions := rfl
  messages := rfl
  justified _ ht := nomatch ht
  failed := rfl

/-- A response goes on with more rules. -/
theorem Responded.append {rules more : List Rule} {taken others : List Taken} {o o' : Outcome}
    (h : Responded event idSupply made policy rules taken o)
    (h' : Responded event idSupply (made + rules.length) policy more others o') :
    Responded event idSupply made policy (rules ++ more) (taken ++ others) (o.append o') where
  alerts := List.rel_append h.alerts h'.alerts
  ids := by
    show (o.alerts ++ o'.alerts).map Alert.id = _
    rw [List.map_append, List.length_append, map_range_add, h.ids, h'.ids]
  actions := by
    show _ = ((rules ++ more).zip (o.alerts ++ o'.alerts)).flatMap _
    rw [List.zip_append h.alerts.length_eq, List.flatMap_append, List.map_append, h.actions,
      h'.actions]
  messages := by
    show o.messages ++ o'.messages = _
    rw [List.flatMap_append, h.messages, h'.messages]
  justified t ht := by
    rcases List.mem_append.mp ht with ht | ht
    · exact h.justified t ht
    · exact h'.justified t ht
  failed := by
    show (o.failedActions ++ o'.failedActions).length = _
    rw [List.length_append, List.countP_append, h.failed, h'.failed]

/-- What comes of one rule. -/
theorem respond_responded {s : Server} (hkeyed : s.engine.directory.IsKeyed) (event : Event)
    (rule : Rule) :
    Responded event s.engine.idSupply s.alertsMade s.engine.policy [rule] (takenBy event s rule)
      (respond event s rule).2 := by
  let raised : Server := { s with alertsMade := s.alertsMade + 1 }
  let alert := rule.detect event s.nextAlertId s.now
  obtain ⟨halerts, hmessages, hfailed⟩ := actAll_spec rule alert raised rule.actions
  have halert : (respond event s rule).2.alerts = [alert] := by
    show alert :: (actAll rule alert raised rule.actions).2.alerts = [alert]
    rw [halerts]
  refine ⟨?alerts, ?ids, ?actions, hmessages, fun t ht => ?justified, hfailed⟩
  case alerts =>
    rw [halert]
    exact .cons (rule.isOf_detect event _ _) .nil
  case ids =>
    rw [halert]
    rfl
  case actions =>
    rw [halert, takenBy, map_takenFor]
    exact (List.append_nil _).symm
  case justified =>
    -- The action was taken by a server with the recipients and the policy that there were first.
    obtain ⟨hrule, hof, hwaits⟩ := of_mem_takenFor ht
    have hseverity : t.alert.severity = t.rule.priority := by
      rw [hrule, hof]
      rfl
    have hpolicy : t.server.engine.policy = s.engine.policy := hwaits.policy
    exact hpolicy ▸ Taken.justifies (hwaits.directory ▸ hkeyed) hseverity

/-- What comes of rules, one after the other. -/
theorem respondAll_responded {s : Server} (hkeyed : s.engine.directory.IsKeyed) (event : Event)
    (rules : List Rule) :
    Responded event s.engine.idSupply s.alertsMade s.engine.policy rules (takenOn event s rules)
      (respondAll event s rules).2 := by
  induction rules generalizing s with
  | nil => exact .nil
  | cons rule rest ih =>
    -- The first rule leaves a server with one more alert, and otherwise with what it had.
    have hwaits := s.waits_respond event rule
    have hrest := ih (s := (respond event s rule).1) (hwaits.directory ▸ hkeyed)
    rw [hwaits.alertsMade, hwaits.policy, hwaits.idSupply] at hrest
    exact (respond_responded hkeyed event rule).append hrest

end

/-- Whatever was asked of a server before, an event raises one alert for each rule that it sets off,
with an id of its own and in the order of the rules; every message was made for an action of such a
rule and is what this action asks for; and the webhook calls that gave an error are reported. -/
theorem handleEvent_responded (plugins : Plugins Carrier) (config : ServerConfig)
    (scripts : List (String × Script)) (outside : Outside) (now : Instant) (idSupply : IdSupply)
    (requests : List Request) (event : Event) :
    let s := (ofConfig plugins config scripts outside now idSupply).takeAll requests
    let rules := s.rules.due event s.now
    let outcome := (s.handleEvent event).2
    rules.Pairwise Rule.Precedes ∧ (outcome.alerts.map Alert.id).Nodup ∧
      Responded event s.engine.idSupply s.alertsMade s.engine.policy rules (s.taken event)
        outcome := by
  intro s rules outcome
  have horderly : s.Orderly :=
    takeAll_orderly plugins config scripts outside now idSupply requests
  have hresponded : Responded event s.engine.idSupply s.alertsMade s.engine.policy rules
      (s.taken event) outcome := by
    let processed : Server := { s with rules := (s.rules.process event s.now).1 }
    have houtcome : outcome = (respondAll event processed rules).2 := by
      show (respondAll event processed
        ((s.rules.process event s.now).2.map fun t => t.loaded.rule)).2 = _
      rw [horderly.rules.process_due event s.now]
    have hkeyed : processed.engine.directory.IsKeyed := horderly.directory
    rw [houtcome]
    exact respondAll_responded hkeyed event rules
  refine ⟨horderly.rules.due_ordered event s.now, ?_, hresponded⟩
  rw [hresponded.ids]
  -- The supply gives different ids for different numbers.
  refine List.Nodup.map (fun i j hij => ?_) List.nodup_range
  obtain ⟨-, hsame⟩ := s.engine.idSupply.unique hij
  omega

end Server

end Klaxon
