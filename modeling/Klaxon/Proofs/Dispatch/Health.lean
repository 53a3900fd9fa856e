import Klaxon.Proofs.Channel.Health
import Klaxon.Proofs.Dispatch.AttemptLog
import Klaxon.Proofs.Dispatch.Frame
import Klaxon.Proofs.Dispatch.Simulation

/-!
# The health of channels in a run

`incidentsAt` says which turns of a run bear on the health of a channel: the end of a call over it,
a refusal of its limiter, and the two requests from outside. Each turn does to the health of every
channel what its incidents do (`Sound.meets_turn`), and so does every run (`Sound.meets_run`).
-/

namespace Klaxon

open Channel (Incident)

/-- From one registry to another the health of a channel becomes what incidents make of it. -/
def Registry.Meets (unhealthyAfter : UInt32) (id : String) (incidents : List Incident)
    (r r' : Registry) : Prop :=
  ∀ c, r.get? id = some c →
    ∃ c', r'.get? id = some c' ∧ (c.after unhealthyAfter incidents).SameHealth c'

namespace Registry

variable {n : UInt32} {id : String}

/-- Without incidents a registry meets itself. -/
theorem Meets.refl (n : UInt32) (id : String) (r : Registry) : Meets n id [] r r :=
  fun c hc => ⟨c, hc, .refl c⟩

/-- Incidents can be met one part after the other. -/
theorem Meets.trans {before behind : List Incident} {r₁ r₂ r₃ : Registry}
    (h : Meets n id before r₁ r₂) (h' : Meets n id behind r₂ r₃) :
    Meets n id (before ++ behind) r₁ r₃ := by
  intro c hc
  obtain ⟨c', hc', hsame⟩ := h c hc
  obtain ⟨c'', hc'', hsame'⟩ := h' c' hc'
  refine ⟨c'', hc'', ?_⟩
  rw [Channel.after_append]
  exact (hsame.after n behind).trans hsame'

/-- A change that does to health what incidents do. -/
theorem meets_modify (n : UInt32) (id j : String) {change : Channel → Channel}
    (hspec : ∀ c, (change c).spec = c.spec) (incidents : List Incident)
    (h : ∀ c : Channel, (c.after n incidents).SameHealth (change c)) (r : Registry) :
    Meets n id (if j = id then incidents else []) r (r.modify j change) := by
  intro c hc
  rw [Engine.get?_modify hspec]
  by_cases hj : j = id
  · rw [if_pos hj, if_pos hj.symm, hc]
    exact ⟨change c, rfl, h c⟩
  · rw [if_neg hj, if_neg (Ne.symm hj)]
    exact ⟨c, hc, .refl c⟩

/-- A change that leaves health alone. -/
theorem meets_modify_of_sameHealth (n : UInt32) (id j : String) {change : Channel → Channel}
    (hspec : ∀ c, (change c).spec = c.spec) (h : ∀ c : Channel, c.SameHealth (change c))
    (r : Registry) :
    Meets n id [] r (r.modify j change) := by
  have hmeets := meets_modify n id j hspec [] h r
  rwa [ite_self] at hmeets

end Registry

namespace Engine

open Registry (Meets)

/-- What bears on the health of a channel in a turn. -/
def incidentsAt (channelId : String) (e : Engine) (now : Instant) : Turn → List Incident
  | .attempt id =>
    match e.stage? id with
    | some (.claimed m attemptedAt) =>
      match (e.attempt m attemptedAt now).2 with
      | some _ => []
      -- An attempt is over without a call where the limiter refuses it.
      | none => if m.channelId = channelId then [.failed (.rateLimited m.channelId)] else []
    | _ => []
  | .complete id report =>
    match e.callOf? id with
    | some call => if call.channelId = channelId then [.ofReport report] else []
    | none => []
  | .markUnhealthy id => if id = channelId then [.markedUnhealthy] else []
  | .restore id => if id = channelId then [.restored] else []
  | _ => []

variable {e₀ e : Engine} {past : List Happening}

/-! ## The record of an attempt -/

/-- A milestone other than a delivery has no part in health. -/
theorem meets_mark (e : Engine) (m : Message) {k : Milestone} (hk : k ≠ .delivered)
    (latencyMs : UInt64) (now : Instant) (n : UInt32) (id : String) :
    Meets n id [] e.registry (e.mark m k latencyMs now).registry := by
  refine Registry.meets_modify_of_sameHealth n id m.channelId (k.spec_change latencyMs) ?_ _
  cases k with
  | delivered => exact absurd rfl hk
  | sent | failed => exact fun c => ⟨rfl, rfl⟩

/-- An error that is counted against a channel is the incident of a failed attempt. -/
theorem meets_blame (e : Engine) (channelId : String) (error : DispatchError) (id : String) :
    Meets e.policy.unhealthyAfter id (if channelId = id then [.failed error] else []) e.registry
      (e.blame channelId error).registry := by
  unfold blame
  cases hspeaks : speaksAgainstChannel error with
  | true =>
    rw [if_pos rfl]
    refine Registry.meets_modify _ id channelId (fun c => spec_recordAttemptFailure c _)
      [.failed error] ?_ _
    intro c
    have hmeet : (c.meet e.policy.unhealthyAfter (.failed error)) =
        c.recordAttemptFailure e.policy.unhealthyAfter := by
      rw [Channel.meet, if_pos hspeaks]
    exact hmeet ▸ .refl _
  | false =>
    -- An error that does not count leaves the engine as it is, and so does its incident.
    rw [if_neg Bool.false_ne_true]
    intro c hc
    refine ⟨c, hc, ?_⟩
    split
    · show (c.meet e.policy.unhealthyAfter (.failed error)).1.SameHealth c
      rw [Channel.meet_failed hspeaks]
      exact .refl c
    · exact .refl c

/-- The end of an attempt is the incident that its report tells of. -/
theorem meets_settle (e : Engine) {m : Message} (hs : m.status = .sending) {channel : Channel}
    (hchannel : channel.id = m.channelId) (attemptedAt : Instant) (report : Report)
    (retryable : Bool) (now : Instant) (id : String) :
    Meets e.policy.unhealthyAfter id (if m.channelId = id then [.ofReport report] else [])
      e.registry (e.settle m channel attemptedAt report retryable now).registry := by
  unfold settle Incident.ofReport
  rw [hchannel]
  cases hr : report.result with
  | ok receipt =>
    obtain ⟨m', a, hm', -, -, -, -, heq⟩ :=
      e.settleDelivered_eq hs (attemptOf m attemptedAt report) receipt now
    simp only [heq]
    have hid : m'.channelId = m.channelId := by rw [hm']
    rw [← hid]
    exact Registry.meets_modify _ id m'.channelId (Milestone.spec_change .delivered a.latencyMs)
      [.delivered report.latencyMs] (fun c => ⟨rfl, rfl⟩) _
  | error error =>
    -- The error is counted first; to retry or to give up the message does nothing to health.
    have hblame := e.meets_blame m.channelId error id
    rw [← List.append_nil (if m.channelId = id then _ else _)]
    refine hblame.trans ?_
    simp only
    generalize e.blame m.channelId error = e₁
    split
    · rw [e₁.settleRetry_eq hs]
      exact .refl _ id _
    · obtain ⟨m', -, heq⟩ := e₁.settleFailed_eq hs
        { attemptOf m attemptedAt report with
          responseCode := error.status?, error := some error.message } now
      rw [heq]
      exact (e₁.putMessage m').meets_mark m' (by decide) 0 now _ id

/-- The record of an attempt at a message that is being sent. -/
theorem meets_record (e : Engine) {m : Message} (hm : e.message? m.id = some m)
    (hs : m.status = .sending) {channel : Channel} (hchannel : channel.id = m.channelId)
    (attemptedAt : Instant) (content : Option RenderedContent) (report : Report)
    (retryable : Bool) (now : Instant) (id : String) :
    Meets e.policy.unhealthyAfter id (if m.channelId = id then [.ofReport report] else [])
      e.registry (e.record m.id channel attemptedAt content report retryable now).registry := by
  have hsame := m.sameOrigin_withNewContent content
  have hstatus : (withNewContent m content).status = .sending := by cases content <;> exact hs
  rw [← hsame.channelId] at hchannel ⊢
  unfold record
  rw [hm]
  exact (e.putMessage _).meets_settle hstatus hchannel attemptedAt report retryable now id

/-- The begin of an attempt says nothing on the health of a channel, unless the limiter refuses it
and it is over. -/
theorem meets_attempt (e : Engine) {m : Message} (hm : e.message? m.id = some m)
    (hs : m.status = .sending) (hr : e.Routes m) (attemptedAt now : Instant) (id : String) :
    Meets e.policy.unhealthyAfter id
      (match (e.attempt m attemptedAt now).2 with
        | some _ => []
        | none => if m.channelId = id then [.failed (.rateLimited m.channelId)] else [])
      e.registry (e.attempt m attemptedAt now).1.registry := by
  obtain ⟨spec, hspec⟩ := hr.channel
  obtain ⟨channel, hget, -, hid⟩ := get?_of_spec? hspec
  obtain ⟨content, rendered, hcontent⟩ := hr.contentOf
  have hcount := e.alike_countFirst m attemptedAt
  -- What is counted at a first attempt, and the limiter, have no part in health.
  have hfirst : Meets e.policy.unhealthyAfter id [] e.registry
      (e.countFirst m m.channelId attemptedAt).registry := by
    rw [countFirst_eq]
    split
    · exact e.meets_mark m (by decide) 0 attemptedAt _ id
    · exact .refl _ id _
  have hacquire : Meets e.policy.unhealthyAfter id [] e.registry
      ((e.countFirst m m.channelId attemptedAt).modifyChannel m.channelId
        fun c => (c.tryAcquire attemptedAt).1).registry :=
    hfirst.trans (Registry.meets_modify_of_sameHealth _ id m.channelId
      (fun c => spec_tryAcquire c attemptedAt) (fun c => c.sameHealth_tryAcquire attemptedAt) _)
  have halike := hcount.trans (alike_modifyChannel _ m.channelId
    fun c => spec_tryAcquire c attemptedAt)
  have hpolicy := ((e.undisturbed_countFirst m m.channelId attemptedAt).trans
    (undisturbed_modifyChannel _ m.channelId fun c => (c.tryAcquire attemptedAt).1)).policy
  unfold attempt
  simp only [hget, hid, contentOf_congr hcount.templates, hcontent]
  generalize (e.countFirst m m.channelId attemptedAt).modifyChannel m.channelId
    (fun c => (c.tryAcquire attemptedAt).1) = e₁ at hacquire halike hpolicy
  cases (channel.tryAcquire attemptedAt).2 with
  | true =>
    simp only [if_true]
    exact hacquire
  | false =>
    have hm₁ : e₁.message? m.id = some m := (halike.agrees m.id).message.trans hm
    have hrecord := e₁.meets_record hm₁ hs hid attemptedAt rendered
      ⟨.error (.rateLimited m.channelId), 0⟩ true now id
    rw [hpolicy] at hrecord
    simp only [Bool.false_eq_true, if_false]
    exact hacquire.trans hrecord

/-! ## Turns -/

/-- The attempt at a message does to the health of every channel what its incidents do. -/
theorem Sound.meets_attempt (h : Sound e₀ e past) (now : Instant) (id channelId : String) :
    Meets e.policy.unhealthyAfter channelId (e.incidentsAt channelId now (.attempt id)) e.registry
      (e.turn now (.attempt id)).registry := by
  simp only [turn, incidentsAt]
  cases hstage : e.stage? id with
  | none => exact .refl _ channelId _
  | some s =>
    cases s with
    | pulled | calling => exact .refl _ channelId _
    | claimed m attemptedAt =>
      obtain ⟨hat, rfl, hs, hr⟩ := h.claimed hstage
      exact e.meets_attempt hat.message hs hr attemptedAt now channelId

/-- The end of a call does to the health of every channel what its incident does. -/
theorem Sound.meets_complete (h : Sound e₀ e past) (now : Instant) (id channelId : String)
    (report : Report) :
    Meets e.policy.unhealthyAfter channelId (e.incidentsAt channelId now (.complete id report))
      e.registry (e.turn now (.complete id report)).registry := by
  simp only [turn, incidentsAt, complete]
  cases hcall : e.callOf? id with
  | none => exact .refl _ channelId _
  | some call =>
    obtain ⟨m, hat, rfl, hs, hc, hr⟩ := h.calling hcall
    obtain ⟨spec, hspec⟩ := hr.channel
    obtain ⟨channel, hget, -, hid⟩ := get?_of_spec? hspec
    simp only [hc, hget]
    exact e.meets_record hat.message hs hid call.attemptedAt call.rendered report true now
      channelId

/-- A turn does to the health of every channel what its incidents do. -/
theorem Sound.meets_turn (h : Sound e₀ e past) (now : Instant) (t : Turn) (channelId : String) :
    Meets e.policy.unhealthyAfter channelId (e.incidentsAt channelId now t) e.registry
      (e.turn now t).registry := by
  cases t with
  | attempt id => exact h.meets_attempt now id channelId
  | complete id report => exact h.meets_complete now id channelId report
  | markUnhealthy id =>
    have hspec : ∀ c : Channel, c.markUnhealthy.spec = c.spec := fun _ => rfl
    exact Registry.meets_modify _ channelId id hspec [.markedUnhealthy] (fun _ => .refl _) _
  | restore id =>
    have hspec : ∀ c : Channel, c.restore.spec = c.spec := fun _ => rfl
    exact Registry.meets_modify _ channelId id hspec [.restored] (fun _ => .refl _) _
  | report => exact .refl _ channelId _
  | offer | holdBack | sendCustom | sendWebhook | cancel | prune | pull | claim | fire
    | setDirectory =>
    rw [(e.turn_unrecorded now rfl).registry]
    exact .refl _ channelId _

/-- A run does to the health of every channel what the incidents in it do. -/
theorem Sound.meets_run (h : Sound e₀ e past) (turns : List (Instant × Turn))
    (channelId : String) :
    Meets e.policy.unhealthyAfter channelId (e.observe (incidentsAt channelId) turns) e.registry
      (e.run turns).registry := by
  induction turns generalizing e past with
  | nil => exact .refl _ channelId _
  | cons t rest ih =>
    have hrest := ih (turn_sound h t.1 t.2)
    -- The threshold is that of the policy, which no turn changes.
    rw [(e.turn_leaves t.1 t.2).policy] at hrest
    exact (h.meets_turn t.1 t.2 channelId).trans hrest

/-- A new channel is unhealthy where the incidents since it was last healed left it so, whatever
happens to it. In a run the incidents are those of its turns, and the threshold is that of the
policy. -/
theorem run_followsIncidents {spec : ChannelSpec} {handles : ChannelType} {c : Channel}
    (hc : Channel.create spec handles = .ok c) :
    c.FollowsIncidents ∧
      ∀ (registry : Registry) (templates : TemplateStore) (directory : Directory)
        (policy : Policy) (idSupply : IdSupply) (turns : List (Instant × Turn)),
        registry.get? c.id = some c →
        ∃ c', ((create registry templates directory policy idSupply).run turns).registry.get? c.id =
            some c' ∧
          (c'.healthy = false ↔ Incident.Upset policy.unhealthyAfter
            ((create registry templates directory policy idSupply).observe (incidentsAt c.id)
              turns)) := by
  have hfollows := Channel.FollowsIncidents.of_create hc
  refine ⟨hfollows, fun registry templates directory policy idSupply turns hget => ?_⟩
  have hsound := create_sound registry templates directory policy idSupply
  obtain ⟨c', hget', hsame⟩ := hsound.meets_run turns c.id c hget
  refine ⟨c', hget', ?_⟩
  rw [hsame.healthy]
  exact hfollows.unhealthy_iff policy.unhealthyAfter _

/-- Four failures of which two count. -/
def troubles : List Incident :=
  [.failed (.http "no answer"), .failed (.rejected "no such page"), .failed (.rateLimited "hook"),
    .failed (.http "no answer")]

/-- One failure that counts is enough where the threshold is one. -/
theorem hook_followsIncidents :
    Channel.create hook.spec .webhook = .ok hook ∧ (hook.after 2 troubles).healthy = false ∧
      (hook.after 3 troubles).healthy = true ∧
      ∃ c', ((create [hook] .withDefaults [] { Policy.standard with unhealthyAfter := 1 }).run
          (tryOnce "m1" (.error (.http "no answer")))).registry.get? hook.id = some c' ∧
        c'.healthy = false := by
  have hc : Channel.create hook.spec .webhook = .ok hook := rfl
  obtain ⟨hfollows, hruns⟩ := run_followsIncidents hc
  refine ⟨hc, (hfollows.unhealthy_iff 2 troubles).mpr (by decide), ?_, ?_⟩
  · exact eq_true_of_ne_false fun h =>
      absurd ((hfollows.unhealthy_iff 3 troubles).mp h) (by decide)
  · obtain ⟨c', hget, hiff⟩ := hruns [hook] .withDefaults []
      { Policy.standard with unhealthyAfter := 1 } .numbered
      (tryOnce "m1" (.error (.http "no answer"))) rfl
    exact ⟨c', hget, hiff.mpr (by decide +kernel)⟩

end Engine

end Klaxon
