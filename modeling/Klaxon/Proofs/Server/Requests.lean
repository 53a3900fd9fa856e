import Klaxon.Proofs.Rule.RuleSets
import Klaxon.Proofs.Server.LastDrain

/-!
# Servers that requests lead to

Whatever is asked of a server, it is asked one request after the other; while a request is taken
care of, time may pass. `Server.Waits` says what the passing of time leaves alone: the rules, the
recipients, the policy and the number of alerts. So the rules of every server that requests lead to
are well kept, and its recipients are found under their own ids (`takeAll_orderly`).
-/

namespace Klaxon

/-- Something that is asked of a server. -/
inductive Server.Request where
  | handle (event : Event)
  | raise (alert : String → Alert)
  | notify (alert : Alert) (recipientIds : List String) (priority : Priority)
  | callWebhook (alert : Alert) (channelId : String) (url : Option String)
  | sendCustom (recipientId channelId templateId : String) (context : Json) (priority : Priority)
  | changeRules (op : RuleSet.Operation)
  | upsertRecipient (recipient : Recipient)
  | removeRecipient (id : String)
  | markUnhealthy (channelId : String)
  | restore (channelId : String)
  | cancel (id : String)
  | prune (before : Instant)
  | statistics
  | markRead (recipient messageId : String)
  | takeHandedOver
  | tick
  | advance (ms : Nat)
  | start
  | stop
  | maintain (retentionSecs statsSecs : UInt64)

namespace Directory

/-- The recipients of a directory stand under their own ids. -/
def IsKeyed (d : Directory) : Prop := ∀ entry ∈ d, entry.2.id = entry.1

/-- A recipient is entered under their own id. -/
theorem IsKeyed.upsert {d : Directory} (h : d.IsKeyed) (r : Recipient) : (d.upsert r).IsKeyed := by
  induction d with
  | nil =>
    intro entry hentry
    rw [List.mem_singleton.mp hentry]
  | cons first rest ih =>
    obtain ⟨id, old⟩ := first
    have hrest : IsKeyed rest := fun entry hentry => h entry (List.mem_cons_of_mem _ hentry)
    unfold Directory.upsert
    split
    · next hid =>
      intro entry hentry
      rcases List.mem_cons.mp hentry with rfl | hentry
      · exact hid.symm
      · exact hrest entry hentry
    · intro entry hentry
      rcases List.mem_cons.mp hentry with rfl | hentry
      · exact h _ List.mem_cons_self
      · exact ih hrest entry hentry

/-- Those who are left stand under their own ids. -/
theorem IsKeyed.remove {d : Directory} (h : d.IsKeyed) (id : String) : (d.remove id).1.IsKeyed :=
  fun entry hentry => h entry (List.mem_filter.mp hentry).1

/-- Recipients of a list stand under their own ids. -/
theorem isKeyed_ofList (recipients : List Recipient) : (ofList recipients).IsKeyed := by
  refine List.foldlRecOn recipients _ (motive := IsKeyed) (fun entry hentry => ?_) ?_
  · simp at hentry
  · exact fun d h r _ => h.upsert r

/-- What is found under an id has that id. -/
theorem IsKeyed.id_of_get? {d : Directory} (h : d.IsKeyed) {id : String} {r : Recipient}
    (hget : d.get? id = some r) : r.id = id := by
  unfold Directory.get? at hget
  induction d with
  | nil => simp at hget
  | cons first rest ih =>
    obtain ⟨key, found⟩ := first
    rw [List.lookup_cons] at hget
    split at hget
    · next hkey =>
      obtain rfl := Option.some.inj hget
      exact (h _ List.mem_cons_self).trans (beq_iff_eq.mp hkey).symm
    · exact ih (fun entry hentry => h entry (List.mem_cons_of_mem _ hentry)) hget

end Directory

namespace Engine

/-- A run leaves the policy as it is. -/
theorem policy_run (e : Engine) (turns : List (Instant × Turn)) :
    (e.run turns).policy = e.policy := by
  induction turns generalizing e with
  | nil => rfl
  | cons t rest ih => exact (ih _).trans (e.turn_leaves t.1 t.2).policy

/-- A run leaves the supply of ids as it is. -/
theorem idSupply_run (e : Engine) (turns : List (Instant × Turn)) :
    (e.run turns).idSupply = e.idSupply := by
  induction turns generalizing e with
  | nil => rfl
  | cons t rest ih => exact (ih _).trans (e.turn_leaves t.1 t.2).idSupply

/-- A fan-out leaves the directory, the policy and the supply of ids as they are. -/
theorem fanOut_keeps (e : Engine) (alert : Alert) (recipientIds : List String)
    (priority : Priority) (now : Instant) :
    (e.fanOut alert recipientIds priority now).1.directory = e.directory ∧
      (e.fanOut alert recipientIds priority now).1.policy = e.policy ∧
      (e.fanOut alert recipientIds priority now).1.idSupply = e.idSupply := by
  obtain ⟨turns, h⟩ := e.fanOut_eq_run alert recipientIds priority now
  exact ⟨h.directory, h.run ▸ policy_run e turns, h.run ▸ idSupply_run e turns⟩

/-- A timer that fires leaves them as they are. -/
theorem fire_keeps (e : Engine) (timer : Timer) :
    (e.fire timer).directory = e.directory ∧ (e.fire timer).policy = e.policy ∧
      (e.fire timer).idSupply = e.idSupply := by
  unfold fire requeue
  split
  · split <;> exact ⟨rfl, rfl, rfl⟩
  · exact ⟨rfl, rfl, rfl⟩

end Engine

namespace Server

/-! ## Waiting -/

/-- What stays while a server waits. -/
structure Waits (s s' : Server) : Prop where
  rules : s'.rules = s.rules
  alertsMade : s'.alertsMade = s.alertsMade
  directory : s'.engine.directory = s.engine.directory
  policy : s'.engine.policy = s.engine.policy
  idSupply : s'.engine.idSupply = s.engine.idSupply

namespace Waits

/-- A server that does nothing waits. -/
theorem refl (s : Server) : s.Waits s := ⟨rfl, rfl, rfl, rfl, rfl⟩

/-- A server that waits and waits again waits. -/
theorem trans {a b c : Server} (hab : a.Waits b) (hbc : b.Waits c) : a.Waits c :=
  ⟨hbc.rules.trans hab.rules, hbc.alertsMade.trans hab.alertsMade,
    hbc.directory.trans hab.directory, hbc.policy.trans hab.policy,
    hbc.idSupply.trans hab.idSupply⟩

end Waits

/-- While a call is handed over the server waits. -/
theorem waits_handOver (s : Server) (call : Call) : s.Waits (s.handOver call).1 := by
  unfold handOver
  split <;> exact ⟨rfl, rfl, rfl, rfl, rfl⟩

/-- While an id is taken up the server waits. -/
theorem waits_begin (s : Server) (id : String) : s.Waits (s.begin id).1 := by
  have hengine := s.undisturbed_begin id
  have hrest : (s.begin id).1.rules = s.rules ∧ (s.begin id).1.alertsMade = s.alertsMade := by
    unfold Server.begin
    generalize s.engine.takeUp id s.now = taken
    obtain ⟨engine, call⟩ := taken
    cases call with
    | none => exact ⟨rfl, rfl⟩
    | some call =>
      have hhanded := waits_handOver { s with engine } call
      simp only
      split <;> exact ⟨hhanded.rules, hhanded.alertsMade⟩
  exact ⟨hrest.1, hrest.2, hengine.directory, hengine.policy, hengine.idSupply⟩

/-- While a batch is taken up the server waits. -/
theorem waits_beginAll (s : Server) (ids : List String) : s.Waits (s.beginAll ids).1 := by
  induction ids generalizing s with
  | nil => exact .refl s
  | cons id rest ih => exact (s.waits_begin id).trans (ih _)

/-- While a drain takes a batch the server waits. -/
theorem waits_stepDrain (s : Server) (d : Drain) : s.Waits (s.stepDrain d).1 := by
  unfold stepDrain
  split
  · exact .refl s
  · next lane rest _ =>
    have hpulled : s.Waits { s with engine := (s.engine.pull lane).1 } := ⟨rfl, rfl, rfl, rfl, rfl⟩
    exact hpulled.trans (waits_beginAll _ _)

/-- While something happens by itself the server waits. -/
theorem waits_move (s : Server) (m : Move) : s.Waits (s.move m) := by
  cases m with
  | fire timer =>
    obtain ⟨hdirectory, hpolicy, hsupply⟩ := s.engine.fire_keeps timer
    exact ⟨rfl, rfl, hdirectory, hpolicy, hsupply⟩
  | answer call =>
    have hengine := s.engine.undisturbed_complete call.messageId call.report s.now
    exact ⟨rfl, rfl, hengine.directory, hengine.policy, hengine.idSupply⟩
  | tick => exact ⟨rfl, rfl, rfl, rfl, rfl⟩
  | drainOnTick t =>
    have hstep := s.waits_stepDrain t.drain
    exact ⟨hstep.rules, hstep.alertsMade, hstep.directory, hstep.policy, hstep.idSupply⟩
  | prune => exact ⟨rfl, rfl, rfl, rfl, rfl⟩
  | drain =>
    have hstep := s.waits_stepDrain s.drain
    exact ⟨hstep.rules, hstep.alertsMade, hstep.directory, hstep.policy, hstep.idSupply⟩

/-- Time that passes leaves the rules, the recipients and the policy as they are. -/
theorem waits_await (s : Server) (goal : Goal) : s.Waits (s.await goal) :=
  run_induction (P := fun s' => s.Waits s') (fun s' m h _ => h.trans (s'.waits_move m))
    (fun _ _ h => ⟨h.rules, h.alertsMade, h.directory, h.policy, h.idSupply⟩)
    patience goal (.refl s)

/-- While lanes are drained the server waits. -/
theorem waits_drainBy (s : Server) (d : Drain) : s.Waits (s.drainBy d) := by
  have hset : s.Waits { s with drain := d } := ⟨rfl, rfl, rfl, rfl, rfl⟩
  exact hset.trans (waits_await _ _)

/-! ## Requests that change neither rules nor recipients -/

/-- While new urgent messages are sent the server waits. -/
theorem waits_afterNew (s : Server) (priority : Priority) (messages : List Message) :
    s.Waits (s.afterNew priority messages) := by
  unfold afterNew drainUrgent
  split
  · split
    · exact s.waits_drainBy .urgent
    · exact .refl s
  · exact .refl s

/-- A fan-out leaves the rules, the recipients and the policy as they are. -/
theorem waits_notify (s : Server) (alert : Alert) (recipientIds : List String)
    (priority : Priority) : s.Waits (s.notify alert recipientIds priority).1 := by
  obtain ⟨hdirectory, hpolicy, hsupply⟩ := s.engine.fanOut_keeps alert recipientIds priority s.now
  have hfan : s.Waits
      { s with engine := (s.engine.fanOut alert recipientIds priority s.now).1 } :=
    ⟨rfl, rfl, hdirectory, hpolicy, hsupply⟩
  exact hfan.trans (waits_afterNew _ _ _)

/-- So does the request for one message, served or refused. -/
theorem waits_afterRequest (s : Server) (draft : Except DispatchError Engine.Draft) :
    s.Waits (s.afterRequest (s.engine.submit draft s.now)).1 := by
  unfold Engine.submit
  cases draft with
  | error error => exact .refl s
  | ok d =>
    have haccepted := s.engine.leaves_accept d s.now (t := .holdBack) rfl
    have hengine : s.Waits { s with engine := (s.engine.accept d s.now).1 } :=
      ⟨rfl, rfl, haccepted.directory (by simp), haccepted.policy, haccepted.idSupply⟩
    exact hengine.trans (waits_afterNew _ _ _)

/-- So does the call of a webhook. -/
theorem waits_callWebhook (s : Server) (alert : Alert) (channelId : String)
    (url : Option String) : s.Waits (s.callWebhook alert channelId url).1 :=
  s.waits_afterRequest _

/-- So does a message of one's own. -/
theorem waits_sendCustom (s : Server) (recipientId channelId templateId : String)
    (context : Json) (priority : Priority) :
    s.Waits (s.sendCustom recipientId channelId templateId context priority).1 :=
  s.waits_afterRequest _

/-- A server that starts leaves them as they are. -/
theorem waits_start (s : Server) : s.Waits s.start := by
  -- Channels that fail when they are opened are marked, and nothing else of the engine changes.
  have hmarked : ∀ (ids : List String) (e : Engine),
      (e.markFailing ids).directory = e.directory ∧ (e.markFailing ids).policy = e.policy ∧
        (e.markFailing ids).idSupply = e.idSupply := by
    intro ids
    induction ids with
    | nil => exact fun e => ⟨rfl, rfl, rfl⟩
    | cons id rest ih => exact fun e => ih _
  obtain ⟨hdirectory, hpolicy, hsupply⟩ := hmarked s.failingChannels s.engine
  unfold start
  split
  · exact .refl s
  · exact ⟨rfl, rfl, hdirectory, hpolicy, hsupply⟩

/-- A server that stops leaves them as they are. -/
theorem waits_stop (s : Server) : s.Waits s.stop := by
  unfold stop
  split
  · -- The ticker ends its round before the server stands still.
    have hwait := waits_await { s with running := false } .ticker
    exact ⟨hwait.rules, hwait.alertsMade, hwait.directory, hwait.policy, hwait.idSupply⟩
  · exact .refl s

/-- Upkeep leaves them as they are. -/
theorem waits_maintain (s : Server) (retentionSecs statsSecs : UInt64) :
    s.Waits (s.maintain retentionSecs statsSecs) := by
  unfold maintain
  have hset : ∀ pruners tasks, s.Waits { s with pruners, tasks } :=
    fun _ _ => ⟨rfl, rfl, rfl, rfl, rfl⟩
  exact (hset _ _).trans (waits_await _ _)

/-- A cancellation leaves them as they are. -/
theorem waits_cancel (s : Server) (id : String) : s.Waits (s.cancel id).1 := by
  have hengine := s.engine.undisturbed_cancel id
  exact ⟨rfl, rfl, hengine.directory, hengine.policy, hengine.idSupply⟩

/-- An action of a rule leaves them as they are. -/
theorem waits_act (s : Server) (rule : Rule) (alert : Alert) (action : Action) :
    s.Waits (s.act rule alert action).1 := by
  cases action with
  | createAlert => exact .refl s
  | notify recipients => exact s.waits_notify alert recipients _
  | escalate recipients priority => exact s.waits_notify alert recipients priority
  | webhookCall channelId url =>
    have hcalled := s.waits_callWebhook alert channelId url
    unfold act
    simp only
    generalize s.callWebhook alert channelId url = called at hcalled ⊢
    obtain ⟨s', result⟩ := called
    cases result <;> exact hcalled

/-- The actions of a rule leave them as they are. -/
theorem waits_actAll (s : Server) (rule : Rule) (alert : Alert) (actions : List Action) :
    s.Waits (s.actAll rule alert actions).1 := by
  induction actions generalizing s with
  | nil => exact .refl s
  | cons a rest ih => exact (s.waits_act rule alert a).trans (ih _)

/-- A response raises one alert, and then waits. -/
theorem waits_respond (s : Server) (event : Event) (rule : Rule) :
    Waits { s with alertsMade := s.alertsMade + 1 } (respond event s rule).1 :=
  waits_actAll { s with alertsMade := s.alertsMade + 1 } rule _ rule.actions

/-- Responses leave the rules and the recipients as they are, whatever alerts they raise. -/
theorem keeps_respondAll (s : Server) (event : Event) (rules : List Rule) :
    (respondAll event s rules).1.rules = s.rules ∧
      (respondAll event s rules).1.engine.directory = s.engine.directory := by
  induction rules generalizing s with
  | nil => exact ⟨rfl, rfl⟩
  | cons rule rest ih =>
    have hfirst := s.waits_respond event rule
    obtain ⟨hrules, hdirectory⟩ := ih (respond event s rule).1
    exact ⟨hrules.trans hfirst.rules, hdirectory.trans hfirst.directory⟩

/-! ## Servers -/

/-- Does what is asked. -/
def take (s : Server) : Request → Server
  | .handle event => (s.handleEvent event).1
  | .raise alert => (s.raise alert).1
  | .notify alert recipientIds priority => (s.notify alert recipientIds priority).1
  | .callWebhook alert channelId url => (s.callWebhook alert channelId url).1
  | .sendCustom recipientId channelId templateId context priority =>
    (s.sendCustom recipientId channelId templateId context priority).1
  | .changeRules op => (s.onRules fun r => r.perform op).1
  | .upsertRecipient recipient => s.upsertRecipient recipient
  | .removeRecipient id => (s.removeRecipient id).1
  | .markUnhealthy channelId => (s.markUnhealthy channelId).1
  | .restore channelId => (s.restore channelId).1
  | .cancel id => (s.cancel id).1
  | .prune before => (s.prune before).1
  | .statistics => s.statistics.1
  | .markRead recipient messageId => (s.markRead recipient messageId).1
  | .takeHandedOver => s.takeHandedOver.1
  | .tick => s.tick.1
  | .advance ms => s.advance ms
  | .start => s.start
  | .stop => s.stop
  | .maintain retentionSecs statsSecs => s.maintain retentionSecs statsSecs

/-- Does what is asked, one thing after the other. -/
def takeAll (s : Server) (requests : List Request) : Server := requests.foldl take s

/-- The rules of a server are well kept, and its recipients are found under their own ids. -/
structure Orderly (s : Server) : Prop where
  rules : s.rules.WellKept
  directory : s.engine.directory.IsKeyed

/-- Where rules and recipients stay, a server stays orderly. -/
theorem Orderly.congr {s s' : Server} (h : s.Orderly) (hrules : s'.rules = s.rules)
    (hdirectory : s'.engine.directory = s.engine.directory) : s'.Orderly :=
  ⟨hrules ▸ h.rules, hdirectory ▸ h.directory⟩

/-- A server that waits stays orderly. -/
theorem Orderly.waits {s s' : Server} (h : s.Orderly) (hw : s.Waits s') : s'.Orderly :=
  h.congr hw.rules hw.directory

/-- An event leaves a server orderly. -/
theorem Orderly.handleEvent {s : Server} (h : s.Orderly) (event : Event) :
    (s.handleEvent event).1.Orderly := by
  -- The event changes the rules at once; the responses leave them alone.
  have hprocessed : Orderly { s with rules := (s.rules.process event s.now).1 } :=
    ⟨h.rules.perform (.process event s.now), h.directory⟩
  obtain ⟨hrules, hdirectory⟩ := keeps_respondAll
    { s with rules := (s.rules.process event s.now).1 } event
    ((s.rules.process event s.now).2.map fun t => t.loaded.rule)
  exact hprocessed.congr hrules hdirectory

/-- Whatever is asked, a server stays orderly. -/
theorem Orderly.take {s : Server} (h : s.Orderly) (request : Request) :
    (s.take request).Orderly := by
  cases request with
  | handle event => exact h.handleEvent event
  | raise => exact h.congr rfl rfl
  | notify alert recipientIds priority => exact h.waits (s.waits_notify _ _ _)
  | callWebhook alert channelId url => exact h.waits (s.waits_callWebhook _ _ _)
  | sendCustom => exact h.waits (s.waits_sendCustom _ _ _ _ _)
  | changeRules op => exact ⟨h.rules.perform op, h.directory⟩
  | upsertRecipient recipient => exact ⟨h.rules, h.directory.upsert recipient⟩
  | removeRecipient id => exact ⟨h.rules, h.directory.remove id⟩
  | markUnhealthy => exact h.congr rfl rfl
  | restore => exact h.congr rfl rfl
  | cancel id => exact h.waits (s.waits_cancel id)
  | prune => exact h.congr rfl rfl
  | statistics => exact h.congr rfl rfl
  | markRead => exact h.congr rfl rfl
  | takeHandedOver => exact h.congr rfl rfl
  | tick => exact h.waits (s.waits_drainBy .everyLane)
  | advance => exact h.waits (s.waits_await _)
  | start => exact h.waits s.waits_start
  | stop => exact h.waits s.waits_stop
  | maintain => exact h.waits (s.waits_maintain _ _)

/-- Requests leave a server orderly. -/
theorem Orderly.takeAll {s : Server} (h : s.Orderly) (requests : List Request) :
    (s.takeAll requests).Orderly :=
  List.foldlRecOn requests Server.take h fun _ hs request _ => hs.take request

/-- A server for a configuration that has not started. The channels that are rehearsed may have
scripts of their own. -/
def ofConfig (plugins : Plugins Carrier) (config : ServerConfig) (scripts : List (String × Script))
    (outside : Outside) (now : Instant) (idSupply : IdSupply := .numbered) : Server :=
  (create (assemble plugins config idSupply) config.inboxCapacity.toNat outside now).withScripts
    scripts

/-- Every server that requests lead to is orderly. -/
theorem takeAll_orderly (plugins : Plugins Carrier) (config : ServerConfig)
    (scripts : List (String × Script)) (outside : Outside) (now : Instant) (idSupply : IdSupply)
    (requests : List Request) :
    ((ofConfig plugins config scripts outside now idSupply).takeAll requests).Orderly := by
  have hrules : (ofConfig plugins config scripts outside now idSupply).rules.WellKept :=
    RuleSet.wellKept_load config.rules
  have hdirectory :
      (ofConfig plugins config scripts outside now idSupply).engine.directory.IsKeyed :=
    Directory.isKeyed_ofList config.recipients
  exact Orderly.takeAll ⟨hrules, hdirectory⟩ requests

end Server

end Klaxon
