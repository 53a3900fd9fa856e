import Mathlib.Data.List.Perm.Basic
import Klaxon.Proofs.Dispatch.AttemptLog
import Klaxon.Proofs.Dispatch.Outcomes

/-!
# A batch can be delivered in any order

The deliveries of a batch run at the same time. Each is three steps, the claim of the message, the
begin of the attempt and the end of its call, and the steps of different deliveries come in any
order. `run_deliver_sameOutcome` says that it makes no difference which, as long as no rate limit
decides between the messages, the deliverers answer by the message and the number of the attempt,
and the clock stands still: the messages, the lanes, the timers and all tallies are then the same.
An order that holds three steps of each delivery completes the batch (`Ready.completes`).

One step does the same to its message in every engine where the message stands alike
(`exists_advance`), and leaves the other messages alone. So two steps of different deliveries can be
exchanged (`SameWork.exchange`), and by that all steps of an order that is permuted
(`SameWork.deliver_perm`). Two orders that both complete the batch need not be permutations of each
other, since either may hold steps that nothing was left to do for; but behind one of them the other
one does nothing, and both ways of doing one behind the other are the same.
-/

namespace Klaxon

/-- What the deliverers answer, given the message and the number of the attempt. -/
abbrev Answers := Message → UInt32 → Report

/-- The turn that brings the delivery of an id on from a position. -/
def Position.nextTurn? (answers : Answers) (id : String) (v : Position) : Option Turn :=
  match v.handle with
  | some (.flight .pulled) => some (.claim id)
  | some (.flight (.claimed ..)) => some (.attempt id)
  | some (.flight (.calling _)) =>
    v.message.map fun m => .complete id (answers m m.nextAttemptNumber)
  | _ => none

/-- How many steps are left of a delivery at most. -/
def Position.stagesLeft (v : Position) : Nat :=
  match v.handle with
  | some (.flight .pulled) => 3
  | some (.flight (.claimed ..)) => 2
  | some (.flight (.calling _)) => 1
  | _ => 0

/-- A delivery has three steps at most. -/
theorem Position.stagesLeft_le (v : Position) : v.stagesLeft ≤ 3 := by
  unfold stagesLeft
  split <;> omega

namespace Engine

/-- The turn that brings the delivery of an id on. -/
def nextTurn? (answers : Answers) (e : Engine) (id : String) : Option Turn :=
  match e.stage? id with
  | some .pulled => some (.claim id)
  | some (.claimed ..) => some (.attempt id)
  | some (.calling _) => (e.message? id).map fun m => .complete id (answers m m.nextAttemptNumber)
  | none => none

/-- Goes one step on with the delivery of an id, if there is one. -/
def advance (answers : Answers) (now : Instant) (e : Engine) (id : String) : Engine :=
  match e.nextTurn? answers id with
  | some t => e.turn now t
  | none => e

/-- Goes on with the deliveries of ids, one step for each id in an order. -/
def deliver (answers : Answers) (now : Instant) (e : Engine) (order : List String) : Engine :=
  order.foldl (advance answers now) e

/-- An order of steps completes the deliveries of a batch. -/
structure Completes (answers : Answers) (now : Instant) (e : Engine) (batch order : List String) :
    Prop where
  within : ∀ id ∈ order, id ∈ batch
  ended : ∀ id ∈ batch, (e.deliver answers now order).stage? id = none

/-- Two engines hold the same messages, lanes and timers, the timers in any order, and have counted
the same. -/
structure SameOutcome (e e' : Engine) : Prop where
  messages : e'.messages = e.messages
  lanes : e'.lanes = e.lanes
  timers : e'.timers.Perm e.timers
  totals : e'.statistics.totals = e.statistics.totals
  byPriority : e'.statistics.byPriority = e.statistics.byPriority
  suppressed : e'.statistics.suppressed = e.statistics.suppressed
  cancelled : e'.statistics.cancelled = e.statistics.cancelled
  channels : ∀ id, (e'.registry.get? id).map (fun c => (c.counters, c.rateLimited)) =
    (e.registry.get? id).map fun c => (c.counters, c.rateLimited)

/-! ## What the deliveries leave alone -/

/-- What the steps of deliveries leave alone. -/
structure Steady (e e' : Engine) : Prop where
  ids : e'.messages.map Message.id = e.messages.map Message.id
  lanes : e'.lanes = e.lanes
  gates : e'.registry.map Channel.gate = e.registry.map Channel.gate
  suppressed : e'.statistics.suppressed = e.statistics.suppressed
  cancelled : e'.statistics.cancelled = e.statistics.cancelled

namespace Steady

/-- An engine is steady with itself. -/
theorem refl (e : Engine) : e.Steady e := ⟨rfl, rfl, rfl, rfl, rfl⟩

/-- What is left alone twice is left alone. -/
theorem trans {a b c : Engine} (hab : a.Steady b) (hbc : b.Steady c) : a.Steady c :=
  ⟨hbc.ids.trans hab.ids, hbc.lanes.trans hab.lanes, hbc.gates.trans hab.gates,
    hbc.suppressed.trans hab.suppressed, hbc.cancelled.trans hab.cancelled⟩

end Steady

/-- Counting leaves alone what deliveries do. -/
theorem CountsOnly.steady {e e' : Engine} (h : e.CountsOnly e') : e.Steady e' :=
  ⟨congrArg (List.map Message.id) h.messages, h.lanes, h.gates, h.suppressed, h.cancelled⟩

/-- Storing a message keeps the ids of all messages. -/
theorem steady_putMessage (e : Engine) (m : Message) : e.Steady (e.putMessage m) :=
  ⟨map_id_putMessage e m, rfl, rfl, rfl, rfl⟩

/-- So does the record of an attempt, whatever timer it sets. -/
theorem steady_withRecord (e : Engine) (m : Message) (t : Option Timer) :
    e.Steady (e.withRecord m t) :=
  ⟨map_id_putMessage e m, rfl, rfl, rfl, rfl⟩

/-- The end of a flight is none of what is left alone. -/
theorem steady_land (e : Engine) (id : String) : e.Steady (e.land id) :=
  ⟨rfl, rfl, rfl, rfl, rfl⟩

/-- Nor is the next stage of a flight. -/
theorem steady_moveFlight (e : Engine) (id : String) (s : Stage) : e.Steady (e.moveFlight id s) :=
  ⟨rfl, rfl, rfl, rfl, rfl⟩

/-! ## One step -/

variable {e₀ e e' : Engine} {past past' : List Happening} {answers : Answers} {now : Instant}
  {id : String} {v v' : Position} {hs : List Happening}

/-- A step brings an id to a position, with what is seen of it, and leaves the rest alone. -/
structure Goes (e : Engine) (id : String) (v' : Position) (hs : List Happening) (e' : Engine) :
    Prop where
  position : e'.At id v'
  others : ∀ j, j ≠ id → e.Agrees e' j
  tally : ∀ w, e'.tally w = hs.foldl w.bump (e.tally w)
  steady : e.Steady e'

/-- The turn that comes next depends on the position. -/
theorem At.nextTurn?_eq (h : e.At id v) (answers : Answers) :
    e.nextTurn? answers id = v.nextTurn? answers id := by
  unfold Engine.nextTurn? Position.nextTurn?
  rw [h.stage?, h.message]
  rcases v with ⟨m, _ | p | t | s⟩
  · rfl
  · rfl
  · rfl
  · cases s <;> rfl

/-- A step on a turn that works on the id. -/
theorem Sound.goes_turn (h : Sound e₀ e past) {t : Turn} (ht : t.worksOn? = some id)
    (hrequest : t.isRequest = false) (hat' : (e.turn now t).At id v')
    (hseen : e.happenings now t = hs) (hsteady : e.Steady (e.turn now t)) :
    e.Goes id v' hs (e.turn now t) where
  position := hat'
  others _ hj := h.turn_agrees now ht hj
  tally w := hseen ▸ (turn_moves h now hrequest).tally w
  steady := hsteady

/-- The claim of a message. -/
theorem exists_claimed (e₀ : Engine) {m : Option Message} (hid : ∀ x, m = some x → x.id = id)
    (now : Instant) :
    ∃ v', v'.stagesLeft ≤ 2 ∧ ∀ e past, Sound e₀ e past →
      e.At id ⟨m, some (.flight .pulled)⟩ → e.Goes id v' [] (e.turn now (.claim id)) := by
  have hclaim : ∀ e : Engine, e.At id ⟨m, some (.flight .pulled)⟩ →
      e.turn now (.claim id) = e.claim id now := by
    intro e hat
    simp only [turn, hat.stage?]
  -- Whether the message can be claimed is seen from the message.
  by_cases hwaits : ∃ x x', m = some x ∧ x.beginSending = .ok x'
  · obtain ⟨x, x', rfl, hbegin⟩ := hwaits
    have hx' : x'.id = id := by
      rw [(Message.moveTo_eq_ok hbegin).2]
      exact hid x rfl
    refine ⟨⟨some x', some (.flight (.claimed x' now))⟩, Nat.le_refl 2, fun e past h hat => ?_⟩
    have heq : e.turn now (.claim id) = (e.putMessage x').moveFlight id (.claimed x' now) := by
      rw [hclaim e hat, claim, hat.message]
      simp only [hbegin]
    refine h.goes_turn rfl rfl ?_ rfl ?_
    · rw [heq]
      rw [← hx'] at hat ⊢
      exact hat.putMessage.moveFlight _
    · rw [heq]
      exact (e.steady_putMessage x').trans (steady_moveFlight _ id _)
  · -- The message is gone or waits no more, and the delivery is over.
    refine ⟨⟨m, none⟩, Nat.zero_le 2, fun e past h hat => ?_⟩
    have heq : e.turn now (.claim id) = e.land id := by
      rw [hclaim e hat, claim, hat.message]
      cases m with
      | none => rfl
      | some x =>
        cases hbegin : x.beginSending with
        | error error => simp only [hbegin]
        | ok x' => exact absurd ⟨x, x', rfl, hbegin⟩ hwaits
    refine h.goes_turn rfl rfl ?_ rfl ?_
    · rw [heq]
      exact hat.land
    · rw [heq]
      exact e.steady_land id

/-- The begin of an attempt. -/
theorem exists_begun {m : Message} (hid : m.id = id) (hr : e₀.Routes m)
    (attemptedAt now : Instant) :
    ∃ v' hs, v'.stagesLeft ≤ 1 ∧ ∀ e past, Sound e₀ e past → e.IsUnlimited id →
      e.At id ⟨some m, some (.flight (.claimed m attemptedAt))⟩ →
      e.Goes id v' hs (e.turn now (.attempt id)) := by
  subst hid
  obtain ⟨content, rendered, hcontent⟩ := hr.contentOf
  generalize hcall :
    (⟨m.channelId, attemptedAt, rendered, .ofMessage m content⟩ : Call) = call
  refine ⟨⟨some m, some (.flight (.calling call))⟩, [.begun m, .called m.id call], Nat.le_refl 1,
    fun e past h hunlimited hat => ?_⟩
  have hroutes : e.Routes m := hr.of_eq h.templates h.specs
  have hcontent' : e.contentOf m = .ok (content, rendered) := by
    rw [contentOf_congr h.templates, hcontent]
  obtain ⟨e₁, hcounts, heq⟩ := attempt_eq hat.message hroutes hunlimited hcontent' attemptedAt now
  -- No limit holds the attempt up, so that the call is made in every such engine.
  rw [hcall] at heq
  have hturn : e.turn now (.attempt m.id) = e₁.moveFlight m.id (.calling call) := by
    simp only [turn, hat.stage?, heq]
  refine h.goes_turn rfl rfl ?_ ?_ ?_
  · rw [hturn]
    exact (hat.congr (hcounts.agrees m.id)).moveFlight _
  · simp only [happenings, hat.stage?, heq]
  · rw [hturn]
    exact hcounts.steady.trans (steady_moveFlight _ m.id _)

/-- The end of a call. -/
theorem exists_ended {m : Message} {call : Call} (hid : m.id = id) (hs : m.status = .sending)
    (hc : call.channelId = m.channelId) (hr : e₀.Routes m) (report : Report) (now : Instant) :
    ∃ v' hs, v'.stagesLeft = 0 ∧ ∀ e past, Sound e₀ e past →
      e.At id ⟨some m, some (.flight (.calling call))⟩ →
      e.Goes id v' hs (e.turn now (.complete id report)) := by
  subst hid
  obtain ⟨spec, hspec⟩ := hr.channel
  obtain ⟨channel, -, hchannel, hchannelId⟩ := get?_of_spec? hspec
  have hspecId : spec.id = m.channelId := by
    rw [← hchannel]
    exact hchannelId
  obtain ⟨m', t, hm', htimer, hcompleted⟩ := exists_completed hs hspecId hc report now
  refine ⟨⟨some m', t.map .timer⟩, [.answered m.id report, .recorded m' now],
    by cases t <;> rfl, fun e past h hat => ?_⟩
  have hcall : e.callOf? m.id = some call := by
    unfold callOf?
    rw [hat.stage?]
  obtain ⟨e₁, hcounts, heq⟩ := hcompleted e hat.message hcall ((h.spec? _).trans hspec)
  have hat' : (e₁.land m.id).At m.id ⟨some m', t.map .timer⟩ := by
    rw [← hm'] at hat ⊢
    exact hat.settled htimer hcounts.toAlike
  have hturn : e.turn now (.complete m.id report) = e₁.land m.id := heq
  refine h.goes_turn rfl rfl ?_ ?_ ?_
  · rw [hturn]
    exact hat'
  · simp only [happenings, hcall, heq]
    rw [recorded_of_at hat']
  · rw [hturn]
    exact ((e.steady_withRecord m' t).trans hcounts.steady).trans (steady_land _ _)

/-- A step of a delivery does the same in every engine where the id has the same position, and
brings it nearer to its end. -/
theorem exists_advance (hv : v.Fits e₀ id) (answers : Answers) (now : Instant) :
    ∃ v' hs, v'.stagesLeft ≤ v.stagesLeft - 1 ∧ ∀ e past, Sound e₀ e past →
      e.IsUnlimited id → e.At id v → e.Goes id v' hs (e.advance answers now id) := by
  have hadvance : ∀ e : Engine, e.At id v → e.advance answers now id =
      match v.nextTurn? answers id with
      | some t => e.turn now t
      | none => e := by
    intro e hat
    rw [advance, hat.nextTurn?_eq]
  obtain ⟨m, handle⟩ := v
  -- In a lane, at a timer or nowhere there is no delivery, and the step does nothing.
  have hrest : Position.nextTurn? answers id ⟨m, handle⟩ = none →
      Position.stagesLeft ⟨m, handle⟩ = 0 →
      ∃ v' hs, v'.stagesLeft ≤ Position.stagesLeft ⟨m, handle⟩ - 1 ∧ ∀ e past, Sound e₀ e past →
        e.IsUnlimited id → e.At id ⟨m, handle⟩ →
          e.Goes id v' hs (e.advance answers now id) := by
    intro hnone hzero
    refine ⟨⟨m, handle⟩, [], by omega, fun e past h _ hat => ?_⟩
    rw [hadvance e hat, hnone]
    exact ⟨hat, fun j _ => .refl e j, fun _ => rfl, .refl e⟩
  rcases handle with _ | p | t | _ | ⟨claimed, attemptedAt⟩ | call
  · exact hrest rfl rfl
  · exact hrest rfl rfl
  · exact hrest rfl rfl
  · obtain ⟨v', hleft, hgoes⟩ := exists_claimed e₀ (fun x hx => (hv.stored x hx).1) now
    refine ⟨v', [], hleft, fun e past h _ hat => ?_⟩
    rw [hadvance e hat]
    exact hgoes e past h hat
  · -- The message is as it was claimed.
    have hshape := hv.shape
    cases hshape with
    | absent hi => exact (hi _ rfl).elim
    | queued _ hi => exact hi.elim
    | cancelled _ hi => exact (hi _ rfl).elim
    | claimed =>
      obtain ⟨hid, hr⟩ := hv.stored claimed rfl
      obtain ⟨v', hs, hleft, hgoes⟩ := exists_begun hid hr attemptedAt now
      refine ⟨v', hs, hleft, fun e past h hunlimited hat => ?_⟩
      rw [hadvance e hat]
      exact hgoes e past h hunlimited hat
  · -- The call under way is for the message that is stored, which is being sent.
    have hshape := hv.shape
    cases hshape with
    | absent hi => exact (hi _ rfl).elim
    | queued _ hi => exact hi.elim
    | cancelled _ hi => exact (hi _ rfl).elim
    | @calling m _ hsending hc =>
      obtain ⟨hid, hr⟩ := hv.stored m rfl
      obtain ⟨v', hs, hleft, hgoes⟩ :=
        exists_ended hid hsending hc hr (answers m m.nextAttemptNumber) now
      refine ⟨v', hs, Nat.le_of_eq hleft, fun e past h _ hat => ?_⟩
      rw [hadvance e hat]
      exact hgoes e past h hat

/-! ## Two steps -/

/-- Agreement on an id goes both ways. -/
theorem Agrees.symm (h : e.Agrees e' id) : e'.Agrees e id :=
  ⟨h.message.symm, fun p => (h.lanes p).symm, h.timers.symm, h.flights.symm⟩

/-- Engines agree on an id that has the same position in both. -/
theorem At.agrees (h : e.At id v) (h' : e'.At id v) : e.Agrees e' id :=
  ⟨h'.message.trans h.message.symm, fun p => (h'.lanes p).trans (h.lanes p).symm,
    h'.timers.trans h.timers.symm, h'.flights.trans h.flights.symm⟩

/-- Two engines agree on all ids, and have counted the same. -/
structure SameWork (e e' : Engine) : Prop where
  agrees : ∀ id, e.Agrees e' id
  tally : ∀ w, e'.tally w = e.tally w

/-- An engine has done the same work as itself. -/
theorem SameWork.refl (e : Engine) : e.SameWork e := ⟨.refl e, fun _ => rfl⟩

/-- Having done the same work can be chained. -/
theorem SameWork.trans {a b c : Engine} (hab : a.SameWork b) (hbc : b.SameWork c) :
    a.SameWork c :=
  ⟨fun id => (hab.agrees id).trans (hbc.agrees id), fun w => (hbc.tally w).trans (hab.tally w)⟩

/-- An engine in a run from `e₀` at which the deliveries of a batch are not held up by limits. -/
structure Ready (e₀ : Engine) (batch : List String) (e : Engine) : Prop where
  sound : ∃ past, Sound e₀ e past
  unlimited : ∀ id ∈ batch, e.IsUnlimited id

/-- The next turn of a delivery works on its message. -/
theorem worksOn?_nextTurn? {t : Turn} (h : e.nextTurn? answers id = some t) :
    t.worksOn? = some id ∧ t.isRequest = false := by
  unfold nextTurn? at h
  split at h
  · obtain rfl := Option.some.inj h
    exact ⟨rfl, rfl⟩
  · obtain rfl := Option.some.inj h
    exact ⟨rfl, rfl⟩
  · obtain ⟨m, -, rfl⟩ := Option.map_eq_some_iff.mp h
    exact ⟨rfl, rfl⟩
  · simp at h

/-- A message that is there behind a turn was there before, unless the turn made it. -/
theorem Sound.exists_message?_of_turn (h : Sound e₀ e past) {t : Turn}
    (ht : t.isRequest = false) {j : String} {m' : Message}
    (hm' : (e.turn now t).message? j = some m') :
    ∃ m, e.message? j = some m ∧ m.SameOrigin m' := by
  obtain ⟨v, hat, hlife⟩ := h.life j
  obtain ⟨v', hat', hstep⟩ := (turn_moves h now ht).step j v hat hlife.fits
  obtain ⟨m, hm, hsame⟩ := hstep.sameOrigin (hat'.message.symm.trans hm')
  exact ⟨m, hat.message.trans hm, hsame⟩

variable {batch : List String}

/-- In every ready engine where an id has the same position, its next step goes the same way. -/
theorem Ready.goes (h : Ready e₀ batch e) (hid : id ∈ batch) (answers : Answers)
    (now : Instant) :
    ∃ v v' hs, v'.stagesLeft ≤ v.stagesLeft - 1 ∧ e.At id v ∧
      ∀ e', Ready e₀ batch e' → e'.At id v → e'.Goes id v' hs (e'.advance answers now id) := by
  obtain ⟨past, hsound⟩ := h.sound
  obtain ⟨v, hat, hlife⟩ := hsound.life id
  obtain ⟨v', hs, hleft, hgoes⟩ := exists_advance hlife.fits answers now
  refine ⟨v, v', hs, hleft, hat, fun e' h' hat' => ?_⟩
  obtain ⟨past', hsound'⟩ := h'.sound
  exact hgoes e' past' hsound' (h'.unlimited id hid) hat'

/-- A step of a delivery keeps an engine ready for the others. -/
theorem Ready.advance (h : Ready e₀ batch e) (hid : id ∈ batch) (answers : Answers)
    (now : Instant) : Ready e₀ batch (e.advance answers now id) := by
  obtain ⟨v, v', hs, -, hat, hgoes⟩ := h.goes hid answers now
  have hsteady := (hgoes e h hat).steady
  obtain ⟨past, hsound⟩ := h.sound
  unfold Engine.advance at hsteady ⊢
  cases hnext : e.nextTurn? answers id with
  | none => exact h
  | some t =>
    rw [hnext] at hsteady
    refine ⟨⟨_, turn_sound hsound now t⟩, fun j hj m' hm' c' hc' hcid => ?_⟩
    -- The message has its channel from the start, and the channel its limit.
    obtain ⟨m, hm, hsame⟩ := hsound.exists_message?_of_turn (worksOn?_nextTurn? hnext).2 hm'
    obtain ⟨c, hc, hgate⟩ := limit_of_gates hsteady.gates hc'
    have hspec : c'.spec = c.spec := congrArg Prod.fst hgate
    have hlimiter : c'.limiter = c.limiter := congrArg (fun g => g.2.1) hgate
    have hcid' : c.id = m.channelId := by
      rw [← hsame.channelId, ← hcid]
      exact congrArg ChannelSpec.id hspec.symm
    rw [hlimiter]
    exact h.unlimited j hj m hm c hc hcid'

/-- The same step keeps two engines alike. -/
theorem SameWork.advance (h : Ready e₀ batch e) (h' : Ready e₀ batch e') (hsame : e.SameWork e')
    (hid : id ∈ batch) (answers : Answers) (now : Instant) :
    (e.advance answers now id).SameWork (e'.advance answers now id) := by
  obtain ⟨v, v', hs, -, hat, hgoes⟩ := h.goes hid answers now
  have hstep := hgoes e h hat
  -- The engines agree on the id, so that it has the same position in both.
  have hstep' := hgoes e' h' (hat.congr (hsame.agrees id))
  constructor
  · intro j
    by_cases hj : j = id
    · subst hj
      exact hstep.position.agrees hstep'.position
    · exact ((hstep.others j hj).symm.trans (hsame.agrees j)).trans (hstep'.others j hj)
  · intro w
    rw [hstep'.tally, hstep.tally, hsame.tally]

/-- Two milestones are counted in either order, the sum of the latencies included. -/
theorem Milestone.count_comm (k k' : Milestone) (a b : UInt64) (t : Tally) :
    k.count a (k'.count b t) = k'.count b (k.count a t) := by
  have hlatency : t.latencyMs + b + a = t.latencyMs + a + b := by
    rw [UInt64.add_assoc, UInt64.add_comm b a, ← UInt64.add_assoc]
  cases k <;> cases k' <;>
    simp only [Milestone.count, Tally.addSent, Tally.addDelivered, Tally.addFailed, hlatency]

/-- The order in which happenings are counted does not matter. -/
theorem View.bump_comm (w : View) (t : Tally) (x y : Happening) :
    w.bump (w.bump t x) y = w.bump (w.bump t y) x := by
  unfold View.bump
  cases x.milestone? with
  | none => rfl
  | some reached =>
    cases y.milestone? with
    | none => rfl
    | some reached' =>
      -- Only where the view sees both messages is there anything to exchange.
      by_cases hsees : w.sees reached.2 = true
      · by_cases hsees' : w.sees reached'.2 = true
        · simp only [hsees, hsees', if_true]
          exact Milestone.count_comm _ _ _ _ t
        · simp [hsees, hsees']
      · simp [hsees]

/-- Steps of two deliveries can be exchanged. -/
theorem SameWork.exchange (h : Ready e₀ batch e) {i j : String} (hi : i ∈ batch) (hj : j ∈ batch)
    (hne : i ≠ j) (answers : Answers) (now : Instant) :
    ((e.advance answers now i).advance answers now j).SameWork
      ((e.advance answers now j).advance answers now i) := by
  obtain ⟨v, v', hs, -, hat, hgoes⟩ := h.goes hi answers now
  obtain ⟨u, u', gs, -, hau, hgoes'⟩ := h.goes hj answers now
  have hstepᵢ := hgoes e h hat
  have hstepⱼ := hgoes' e h hau
  -- Each step leaves the other id where it was, so that the second step goes as it would first.
  have hstepᵢⱼ := hgoes' _ (h.advance hi answers now) (hau.congr (hstepᵢ.others j hne.symm))
  have hstepⱼᵢ := hgoes _ (h.advance hj answers now) (hat.congr (hstepⱼ.others i hne))
  constructor
  · intro k
    -- An id of the two is where its own step leaves it; any other is where it was.
    by_cases hki : k = i
    · subst hki
      exact (hstepᵢ.position.congr (hstepᵢⱼ.others k hne)).agrees hstepⱼᵢ.position
    · by_cases hkj : k = j
      · subst hkj
        exact hstepᵢⱼ.position.agrees (hstepⱼ.position.congr (hstepⱼᵢ.others k hne.symm))
      · have hthere := (hstepᵢ.others k hki).trans (hstepᵢⱼ.others k hkj)
        have hback := (hstepⱼ.others k hkj).trans (hstepⱼᵢ.others k hki)
        exact hthere.symm.trans hback
  · intro w
    -- The happenings are the same in another order, and counting does not see the order.
    have hcomm : RightCommutative w.bump := ⟨View.bump_comm w⟩
    calc ((e.advance answers now j).advance answers now i).tally w
        = (gs ++ hs).foldl w.bump (e.tally w) := by
          rw [hstepⱼᵢ.tally, hstepⱼ.tally, List.foldl_append]
      _ = (hs ++ gs).foldl w.bump (e.tally w) := List.perm_append_comm.foldl_eq _
      _ = ((e.advance answers now i).advance answers now j).tally w := by
          rw [hstepᵢⱼ.tally, hstepᵢ.tally, List.foldl_append]

/-! ## Whole orders -/

/-- Orders of steps can be done one behind the other. -/
theorem deliver_append (e : Engine) (answers : Answers) (now : Instant) (σ τ : List String) :
    e.deliver answers now (σ ++ τ) = (e.deliver answers now σ).deliver answers now τ :=
  List.foldl_append

/-- An order of steps keeps an engine ready. -/
theorem Ready.deliver (h : Ready e₀ batch e) (answers : Answers) (now : Instant)
    {order : List String} (horder : ∀ id ∈ order, id ∈ batch) :
    Ready e₀ batch (e.deliver answers now order) := by
  induction order generalizing e with
  | nil => exact h
  | cons id order ih =>
    have hstep := h.advance (horder id List.mem_cons_self) answers now
    exact ih hstep fun j hj => horder j (List.mem_cons_of_mem id hj)

/-- An order of steps leaves alone what each step does. -/
theorem Ready.steady_deliver (h : Ready e₀ batch e) (answers : Answers) (now : Instant)
    {order : List String} (horder : ∀ id ∈ order, id ∈ batch) :
    e.Steady (e.deliver answers now order) := by
  induction order generalizing e with
  | nil => exact .refl e
  | cons id order ih =>
    have hid := horder id List.mem_cons_self
    obtain ⟨v, v', hs, -, hat, hgoes⟩ := h.goes hid answers now
    exact (hgoes e h hat).steady.trans
      (ih (h.advance hid answers now) fun j hj => horder j (List.mem_cons_of_mem id hj))

/-- The same order keeps two engines alike. -/
theorem SameWork.deliver (h : Ready e₀ batch e) (h' : Ready e₀ batch e') (hsame : e.SameWork e')
    (answers : Answers) (now : Instant) {order : List String} (horder : ∀ id ∈ order, id ∈ batch) :
    (e.deliver answers now order).SameWork (e'.deliver answers now order) := by
  induction order generalizing e e' with
  | nil => exact hsame
  | cons id order ih =>
    have hid := horder id List.mem_cons_self
    exact ih (h.advance hid answers now) (h'.advance hid answers now)
      (hsame.advance h h' hid answers now) fun j hj => horder j (List.mem_cons_of_mem id hj)

/-- Orders that are permutations of each other lead to the same. -/
theorem SameWork.deliver_perm (h : Ready e₀ batch e) (answers : Answers) (now : Instant)
    {σ τ : List String} (hperm : σ.Perm τ) (hσ : ∀ id ∈ σ, id ∈ batch) :
    (e.deliver answers now σ).SameWork (e.deliver answers now τ) := by
  -- The induction is on the permutation; its swaps are exchanges of two neighbours.
  induction hperm generalizing e with
  | nil => exact .refl e
  | cons id _ ih =>
    exact ih (h.advance (hσ id List.mem_cons_self) answers now)
      fun j hj => hσ j (List.mem_cons_of_mem id hj)
  | swap i j rest =>
    have hj : j ∈ batch := hσ j List.mem_cons_self
    have hi : i ∈ batch := hσ i (List.mem_cons_of_mem j List.mem_cons_self)
    have hrest : ∀ id ∈ rest, id ∈ batch := fun id hid =>
      hσ id (List.mem_cons_of_mem j (List.mem_cons_of_mem i hid))
    by_cases hne : j = i
    · subst hne
      exact .refl _
    · have hexchange := SameWork.exchange h hj hi hne answers now
      exact hexchange.deliver ((h.advance hj answers now).advance hi answers now)
        ((h.advance hi answers now).advance hj answers now) answers now hrest
  | trans hστ _ ih ih' =>
    exact (ih h hσ).trans (ih' h fun id hid => hσ id (hστ.mem_iff.mpr hid))

/-- Where no delivery is left, an order does nothing. -/
theorem deliver_of_ended {order : List String} (h : ∀ id ∈ order, e.stage? id = none)
    (answers : Answers) (now : Instant) : e.deliver answers now order = e := by
  induction order with
  | nil => rfl
  | cons id order ih =>
    have hstay : e.advance answers now id = e := by
      unfold advance nextTurn?
      rw [h id List.mem_cons_self]
    rw [deliver, List.foldl_cons, hstay]
    exact ih fun j hj => h j (List.mem_cons_of_mem id hj)

/-- Two orders that complete a batch lead to the same. -/
theorem SameWork.of_completes (h : Ready e₀ batch e) {σ τ : List String}
    (hσ : Completes answers now e batch σ) (hτ : Completes answers now e batch τ) :
    (e.deliver answers now σ).SameWork (e.deliver answers now τ) := by
  have hboth : ∀ id ∈ σ ++ τ, id ∈ batch := by
    intro id hid
    rcases List.mem_append.mp hid with hid | hid
    · exact hσ.within id hid
    · exact hτ.within id hid
  -- `σ ++ τ` and `τ ++ σ` are permutations of each other, and the second half does nothing in both.
  have hperm := SameWork.deliver_perm h answers now List.perm_append_comm hboth
  rw [deliver_append, deliver_append,
    deliver_of_ended (fun id hid => hσ.ended id (hτ.within id hid)),
    deliver_of_ended (fun id hid => hτ.ended id (hσ.within id hid))] at hperm
  exact hperm

/-- A delivery of which an order holds some steps is that much nearer to its end. -/
theorem Ready.exists_at_deliver (h : Ready e₀ batch e) (hat : e.At id v) (answers : Answers)
    (now : Instant) {order : List String} (horder : ∀ j ∈ order, j ∈ batch) :
    ∃ u, (e.deliver answers now order).At id u ∧
      u.stagesLeft ≤ v.stagesLeft - order.count id := by
  induction order generalizing e v with
  | nil => exact ⟨v, hat, Nat.le_refl _⟩
  | cons j order ih =>
    have hj := horder j List.mem_cons_self
    have hrest : ∀ i ∈ order, i ∈ batch := fun i hi => horder i (List.mem_cons_of_mem j hi)
    obtain ⟨w, w', hs, hleft, haw, hgoes⟩ := h.goes hj answers now
    have hstep := hgoes e h haw
    by_cases hid : j = id
    · subst hid
      -- A step of this delivery counts, and brings it nearer to its end.
      obtain rfl := hat.unique haw
      obtain ⟨u, hau, hle⟩ := ih (h.advance hj answers now) hstep.position hrest
      refine ⟨u, hau, ?_⟩
      rw [List.count_cons_self]
      omega
    · -- A step of another delivery leaves it where it is.
      have hthere := hat.congr (hstep.others id (Ne.symm hid))
      obtain ⟨u, hau, hle⟩ := ih (h.advance hj answers now) hthere hrest
      refine ⟨u, hau, ?_⟩
      rw [List.count_cons_of_ne hid]
      exact hle

/-- An order that holds three steps of each delivery completes a batch. -/
theorem Ready.completes (h : Ready e₀ batch e) (answers : Answers) (now : Instant)
    {order : List String} (horder : ∀ id ∈ order, id ∈ batch)
    (hthree : ∀ id ∈ batch, 3 ≤ order.count id) : Completes answers now e batch order := by
  refine ⟨horder, fun id hid => ?_⟩
  obtain ⟨past, hsound⟩ := h.sound
  obtain ⟨v, hat, -⟩ := hsound.life id
  obtain ⟨⟨m, handle⟩, hat', hleft⟩ := h.exists_at_deliver hat answers now horder
  have hzero : Position.stagesLeft ⟨m, handle⟩ = 0 := by
    have hcount := hthree id hid
    have hstart := v.stagesLeft_le
    omega
  rw [hat'.stage?]
  rcases handle with _ | _ | _ | _ | _ | _
  · rfl
  · rfl
  · rfl
  · simp [Position.stagesLeft] at hzero
  · simp [Position.stagesLeft] at hzero
  · simp [Position.stagesLeft] at hzero

/-! ## Engines that agree -/

/-- Where ids are distinct, the messages are those that are found under them. -/
theorem filterMap_message? (hn : (e.messages.map Message.id).Nodup) :
    (e.messages.map Message.id).filterMap e.message? = e.messages := by
  rw [List.filterMap_map]
  have hfound : ∀ m ∈ e.messages, (e.message? ∘ Message.id) m = some m :=
    fun m hm => message?_of_mem hn hm
  rw [List.filterMap_congr hfound, List.filterMap_some]

/-- The gate of a channel is found by its id. -/
theorem gate?_congr {r r' : Registry} (h : r'.map Channel.gate = r.map Channel.gate)
    (channelId : String) :
    (r'.get? channelId).map Channel.gate = (r.get? channelId).map Channel.gate := by
  have hfind : ∀ r : Registry, (r.get? channelId).map Channel.gate =
      (r.map Channel.gate).find? fun g => g.1.id == channelId := by
    intro r
    rw [List.find?_map]
    rfl
  rw [hfind, hfind, h]

/-- Tallies of all priorities are the same if each of them is. -/
theorem perPriority_ext {α : Type} {a b : PerPriority α} (h : ∀ p, a.get p = b.get p) : a = b := by
  obtain ⟨a₁, a₂, a₃, a₄, a₅⟩ := a
  obtain ⟨b₁, b₂, b₃, b₄, b₅⟩ := b
  obtain rfl : a₁ = b₁ := h .immediate
  obtain rfl : a₂ = b₂ := h .high
  obtain rfl : a₃ = b₃ := h .normal
  obtain rfl : a₄ = b₄ := h .low
  obtain rfl : a₅ = b₅ := h .batch
  rfl

/-- Engines that agree on all ids and have counted the same have the same outcome, if both left
alone what deliveries do. -/
theorem SameWork.sameOutcome {start : Engine} (hsame : e.SameWork e') (h : start.Steady e)
    (h' : start.Steady e') (hn : (start.messages.map Message.id).Nodup) : e.SameOutcome e' := by
  have hids : e'.messages.map Message.id = e.messages.map Message.id := h'.ids.trans h.ids.symm
  have hgates := gate?_congr (h'.gates.trans h.gates.symm)
  constructor
  · -- A list with distinct ids is given by its ids and by what is found under each.
    have hmessage : e'.message? = e.message? := funext fun id => (hsame.agrees id).message
    calc e'.messages = (e'.messages.map Message.id).filterMap e'.message? :=
          (filterMap_message? (by rw [h'.ids]; exact hn)).symm
      _ = (e.messages.map Message.id).filterMap e.message? := by rw [hids, hmessage]
      _ = e.messages := filterMap_message? (by rw [h.ids]; exact hn)
  · exact h'.lanes.trans h.lanes.symm
  · rw [List.perm_iff_count]
    intro t
    -- Timers are counted under the id of their message, where both engines have the same.
    have hcount : ∀ e : Engine, e.timers.count t = (e.timersOf t.messageId).count t :=
      fun e => (List.count_filter (by simp)).symm
    rw [hcount, hcount, (hsame.agrees t.messageId).timers]
  · exact hsame.tally .all
  · exact perPriority_ext fun p => hsame.tally (.priority p)
  · exact h'.suppressed.trans h.suppressed.symm
  · exact h'.cancelled.trans h.cancelled.symm
  · intro id
    -- The gate of a channel has the refusals of its limiter, and the tally has its counters.
    have hgate := hgates id
    have htally := hsame.tally (.channel id)
    simp only [Engine.tally] at htally
    cases hc : e.registry.get? id with
    | none =>
      rw [hc] at hgate
      rw [Option.map_eq_none_iff.mp hgate]
    | some c =>
      rw [hc] at hgate htally
      obtain ⟨c', hc', hsamegate⟩ := Option.map_eq_some_iff.mp hgate
      rw [hc'] at htally ⊢
      have hcounters : c'.counters = c.counters := htally
      have hrefused : c'.rateLimited = c.rateLimited := congrArg (fun g => g.2.2) hsamegate
      simp only [Option.map_some, hcounters, hrefused]

/-- Whatever run leads to an engine, the deliveries of a batch that is taken from a lane can be
interleaved in any way. The outcome is the same if the channels of the batch have no rate limits,
the answers depend on the message and on the number of the attempt, and the clock stands still. -/
theorem run_deliver_sameOutcome (registry : Registry) (templates : TemplateStore)
    (directory : Directory) (policy : Policy) (idSupply : IdSupply)
    (turns : List (Instant × Turn)) (p : Priority)
    (answers : Answers) (now : Instant) {e : Engine} {batch : List String}
    (he : ((create registry templates directory policy idSupply).run turns).pull p = (e, batch))
    (hunlimited : ∀ id ∈ batch, e.IsUnlimited id) {σ τ : List String}
    (hσ : Completes answers now e batch σ) (hτ : Completes answers now e batch τ) :
    (e.deliver answers now σ).SameOutcome (e.deliver answers now τ) := by
  have hrun := run_sound registry templates directory policy idSupply turns
  have hsound := turn_sound hrun now (.pull p)
  have hturn :
      ((create registry templates directory policy idSupply).run turns).turn now (.pull p) = e :=
    congrArg Prod.fst he
  rw [hturn] at hsound
  have hready : Ready (create registry templates directory policy idSupply) batch e :=
    ⟨⟨_, hsound⟩, hunlimited⟩
  exact (SameWork.of_completes hready hσ hτ).sameOutcome
    (hready.steady_deliver answers now hσ.within) (hready.steady_deliver answers now hτ.within)
    hsound.nodup

/-- A channel without a rate limit. -/
def openHook : Channel := { hook with limiter := .ofLimit ⟨0, 0, 0⟩ }

/-- Two requests for messages to the channel. -/
def twoRequests : List (Instant × Turn) :=
  [(⟨0, false⟩, .sendWebhook blaze "hook" none), (⟨0, false⟩, .sendWebhook blaze "hook" none)]

/-- The first message is taken, and the second one finds nobody. -/
def firstOnly : Answers := fun m _ =>
  if m.id = "m1" then ⟨.ok .silent, 5⟩ else ⟨.error (.http "no answer"), 7⟩

/-- Of two messages, one is delivered and one is to be tried again, in whatever order. -/
theorem twoRequests_sameOutcome :
    (((create [openHook] .withDefaults [] .standard).run twoRequests).pull .normal).2 =
        ["m1", "m2"] ∧
      ((((create [openHook] .withDefaults [] .standard).run twoRequests).pull .normal).1.deliver
        firstOnly ⟨0, false⟩ ["m1", "m1", "m1", "m2", "m2", "m2"]).SameOutcome
      ((((create [openHook] .withDefaults [] .standard).run twoRequests).pull .normal).1.deliver
        firstOnly ⟨0, false⟩ ["m2", "m1", "m2", "m1", "m2", "m1"]) := by
  have hbatch : (((create [openHook] .withDefaults [] .standard).run twoRequests).pull .normal).2 =
      ["m1", "m2"] := by decide +kernel
  have hopen : (((create [openHook] .withDefaults [] .standard).run twoRequests).pull
      .normal).1.registry.all (fun c => c.limiter.limit.isUnlimited) = true := by decide +kernel
  have hended : (["m1", "m2"].all fun id =>
      ((((create [openHook] .withDefaults [] .standard).run twoRequests).pull .normal).1.deliver
        firstOnly ⟨0, false⟩ ["m1", "m1", "m1", "m2", "m2", "m2"]).stage? id |>.isNone) = true := by
    decide +kernel
  have hended' : (["m1", "m2"].all fun id =>
      ((((create [openHook] .withDefaults [] .standard).run twoRequests).pull .normal).1.deliver
        firstOnly ⟨0, false⟩ ["m2", "m1", "m2", "m1", "m2", "m1"]).stage? id |>.isNone) = true := by
    decide +kernel
  refine ⟨hbatch, ?_⟩
  refine run_deliver_sameOutcome [openHook] .withDefaults [] .standard .numbered twoRequests .normal
    firstOnly ⟨0, false⟩ (Prod.ext rfl hbatch)
    (fun id _ m _ c hc _ => List.all_eq_true.mp hopen c hc) ⟨by decide, fun id hid => ?_⟩
    ⟨by decide, fun id hid => ?_⟩
  · exact Option.isNone_iff_eq_none.mp (List.all_eq_true.mp hended id hid)
  · exact Option.isNone_iff_eq_none.mp (List.all_eq_true.mp hended' id hid)

end Engine

end Klaxon
