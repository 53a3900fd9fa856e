import Klaxon.Proofs.Server.Retention
import Klaxon.Proofs.Server.UrgentDrain

/-!
# What the drain of the most urgent lane leaves behind

When the drain of the most urgent lane has come to its end, and no timer fired meanwhile, then the
lane is empty, and each message that waited in it was tried once (`Ends.sweeps`). Nothing puts an id
into a lane without a timer, so that the lane stays empty once the drain found it so (`Sweeping`);
and an id that left its lane does not stop before its call (`Engine.IsHanded`), since a server takes
up the ids of a batch as soon as it has them.

`drainUrgent_bounds` puts this together with the bounds on the work that is left: it holds in every
state that an engine comes to, as long as the attempts at its channels can be numbered.
-/

namespace Klaxon

/-! ## Ids that were handed over -/

namespace Engine

variable {e : Engine} {id : String}

/-- An id is not between its lane and its call: if it is in flight, then its call is under way. -/
def IsHanded (e : Engine) (id : String) : Prop :=
  ∀ stage, e.stage? id = some stage → ∃ call, stage = .calling call

/-- An id that is not in flight is not between its lane and its call. -/
theorem isHanded_of_none (h : e.stage? id = none) : e.IsHanded id := by
  intro stage hstage
  rw [h] at hstage
  simp at hstage

/-- Where an id is at the same stage, it is handed over as before. -/
theorem IsHanded.congr {e' : Engine} (h : e.IsHanded id) (hs : e'.stage? id = e.stage? id) :
    e'.IsHanded id := by
  intro stage hstage
  exact h stage (hs ▸ hstage)

/-- A flight that has ended is not there any more. -/
theorem stage?_land (e : Engine) (id : String) : (e.land id).stage? id = none := by
  rw [stage?_eq_head?, flightsOf_land, if_pos rfl]
  rfl

/-- A flight that is moved on is at its new stage. -/
theorem stage?_moveFlight (e : Engine) (id : String) (stage : Stage) :
    (e.moveFlight id stage).stage? id = (e.stage? id).map fun _ => stage := by
  rw [stage?_eq_head?, stage?_eq_head?, flightsOf_moveFlight, if_pos rfl]
  cases e.flightsOf id <;> rfl

/-- The flight of a claimed message ends in its attempt, or its call is under way from then on. -/
theorem isHanded_attempt (e : Engine) (m : Message) (attemptedAt now : Instant) :
    (e.attempt m attemptedAt now).1.IsHanded m.id := by
  have hland (e' : Engine) : (e'.land m.id).IsHanded m.id := isHanded_of_none (e'.stage?_land m.id)
  unfold attempt
  split
  · exact hland _
  · simp only
    split
    · exact hland _
    · split
      · -- This is the one way on which the flight goes on.
        intro stage hstage
        rw [stage?_moveFlight] at hstage
        obtain ⟨-, -, rfl⟩ := Option.map_eq_some_iff.mp hstage
        exact ⟨_, rfl⟩
      · exact hland _

/-- A claim ends the flight of an id, or holds the message of the id. -/
theorem stage?_claim (e : Engine) (id : String) (now : Instant) {stage : Stage}
    (h : (e.claim id now).stage? id = some stage) :
    ∃ m, m.id = id ∧ stage = .claimed m now := by
  unfold claim at h
  split at h
  · rw [stage?_land] at h
    simp at h
  · next m hm =>
    split at h
    · rw [stage?_land] at h
      simp at h
    · next claimed hclaimed =>
      -- The claim went through, so the flight goes on with the message that was claimed.
      rw [stage?_moveFlight] at h
      obtain ⟨-, -, rfl⟩ := Option.map_eq_some_iff.mp h
      obtain ⟨-, rfl⟩ := Message.moveTo_eq_ok hclaimed
      have hid : m.id = id := id_of_message?_eq_some hm
      exact ⟨{ m with status := .sending }, hid, rfl⟩

/-- An id that is taken up is handed over. -/
theorem isHanded_takeUp (e : Engine) (id : String) (now : Instant) :
    (e.takeUp id now).1.IsHanded id := by
  unfold takeUp
  simp only
  split
  · next m attemptedAt hstage =>
    obtain ⟨m', hid, heq⟩ := e.stage?_claim id now hstage
    obtain ⟨rfl, rfl⟩ := Stage.claimed.inj heq
    rw [← hid]
    exact isHanded_attempt _ _ _ _
  · next hother =>
    intro stage hstage
    obtain ⟨m, -, rfl⟩ := e.stage?_claim id now hstage
    exact absurd hstage (hother m now)

/-- A call that ends takes no id back before its call. -/
theorem Sound.isHanded_complete {c : Engine} {past : List Happening} (h : c.Sound e past)
    (j : String) (report : Report) (now : Instant) (hid : e.IsHanded id) :
    (e.complete j report now).IsHanded id := by
  by_cases hne : id = j
  · subst hne
    unfold complete
    split
    · exact hid
    · split <;> exact isHanded_of_none (stage?_land _ id)
  · exact hid.congr (h.complete_agrees report now hne).stage?

/-- An empty batch comes from an empty lane. -/
theorem lane_eq_nil_of_pull {p : Priority} (h : (e.pull p).2 = []) : e.lanes.get p = [] := by
  have htaken : (e.lanes.get p).take (e.policy.batchSize p) = [] := h
  have hpos := e.policy.batchSize_pos p
  rcases List.take_eq_nil_iff.mp htaken with hzero | hnil
  · omega
  · exact hnil

end Engine

namespace Server

variable {c : Engine} {past : List Happening} {s s' : Server} {id : String}

/-! ## No id stops before its call -/

/-- An id that a server begins with is handed over, and the others stay where they are. -/
theorem isHanded_begin (h : c.Sound s.engine past) (hp : s.engine.stage? id = some .pulled) :
    (s.begin id).1.engine.IsHanded id := by
  have htaken := s.engine.isHanded_takeUp id s.now
  obtain ⟨past', hsound⟩ := h.of_reaches (Engine.reaches_takeUp hp s.now)
  rcases s.engine_begin id with hbegin | ⟨report, now, hbegin⟩
  · rw [hbegin]
    exact htaken
  · rw [hbegin]
    exact hsound.isHanded_complete id report now htaken

/-- All ids of a batch are handed over. -/
theorem isHanded_beginAll (h : c.Sound s.engine past) {ids : List String} (hn : ids.Nodup)
    (hp : ∀ j ∈ ids, s.engine.stage? j = some .pulled) (hid : id ∈ ids ∨ s.engine.IsHanded id) :
    (s.beginAll ids).1.engine.IsHanded id := by
  induction ids generalizing s past with
  | nil => exact hid.resolve_left List.not_mem_nil
  | cons j rest ih =>
    obtain ⟨hhead, hrest⟩ := List.nodup_cons.mp hn
    have hpulled := hp j List.mem_cons_self
    obtain ⟨hbegun, hothers⟩ := RunsFrom.begin (.refl s.engine : s.RunsFrom s.engine) h hpulled
    obtain ⟨past', hsound⟩ := h.of_reaches hbegun
    have hstill : ∀ i ∈ rest, (s.begin j).1.engine.stage? i = some .pulled := fun i hi =>
      (hothers i fun he => hhead (he ▸ hi)).trans (hp i (List.mem_cons_of_mem j hi))
    refine ih hsound hrest hstill ?_
    -- The id is the one that is taken up now, or it stays where it is.
    by_cases hij : id = j
    · subst hij
      exact .inr (isHanded_begin h hpulled)
    · rcases hid with hmem | hhanded
      · exact .inl ((List.mem_cons.mp hmem).resolve_left hij)
      · exact .inr (hhanded.congr (hothers id hij))

/-- A drain hands over the ids of its batch. -/
theorem isHanded_stepDrain (h : c.Sound s.engine past) (hid : s.engine.IsHanded id) (d : Drain) :
    (s.stepDrain d).1.engine.IsHanded id := by
  unfold stepDrain
  split
  · exact hid
  · next lane rest _ =>
    refine isHanded_beginAll (s := { s with engine := (s.engine.pull lane).1 })
      (Engine.turn_sound h s.now (.pull lane)) (h.nodup_pull lane)
      (fun j hj => h.pulled_of_pull lane hj) ?_
    by_cases hmem : id ∈ (s.engine.pull lane).2
    · exact .inl hmem
    · -- The other ids are in flight as before.
      right
      refine hid.congr ?_
      rw [Engine.stage?_eq_head?, Engine.stage?_eq_head?, Engine.flightsOf_pull,
        List.count_eq_zero_of_not_mem hmem]
      simp

/-- As time passes, no id stops before its call. -/
theorem isHanded_run (h : c.Sound s.engine past) (hid : s.engine.IsHanded id) (fuel : Nat)
    (goal : Goal) : (Server.run fuel goal s).engine.IsHanded id := by
  refine (run_induction (P := fun s => (∃ past, c.Sound s.engine past) ∧ s.engine.IsHanded id) ?_
    (fun _ _ h => h) fuel goal ⟨⟨past, h⟩, hid⟩).2
  rintro s m ⟨⟨past, hsound⟩, hid⟩ hm
  refine ⟨hsound.of_reaches (RunsFrom.move (.refl s.engine : s.RunsFrom s.engine) hsound hm), ?_⟩
  cases m with
  | fire timer =>
    -- A timer is no flight.
    refine hid.congr ?_
    simp only [move, Engine.stage?, Engine.flights_fire]
  | answer call => exact hsound.isHanded_complete call.messageId call.report s.now hid
  | tick => exact hid
  | drainOnTick t => exact isHanded_stepDrain hsound hid t.drain
  | prune => exact hid
  | drain => exact isHanded_stepDrain hsound hid s.drain

/-! ## The lane stays empty -/

/-- The drain that was asked for empties the most urgent lane, or has found it empty. -/
structure Sweeping (s : Server) : Prop where
  thorough : s.drain.thorough = true
  lanes : s.drain.lanes = [.immediate] ∨
    s.drain.lanes = [] ∧ s.engine.lanes.get .immediate = []

/-- A thorough drain leaves its lane with the first empty batch, and not before. -/
theorem stepDrain_thorough {d : Drain} {lane : Priority} (h : d.thorough = true)
    (hlanes : d.lanes = [lane]) : (s.stepDrain d).2.thorough = true ∧
      (s.stepDrain d).2.lanes = if (s.engine.pull lane).2.isEmpty then [] else [lane] := by
  unfold stepDrain
  simp only [hlanes, h, Bool.true_and]
  cases (s.engine.pull lane).2 <;> exact ⟨trivial, rfl⟩

/-- A move at which no timer fires keeps the lane empty, once it was found so. -/
theorem Sweeping.move (h : s.Sweeping) (hsound : c.Sound s.engine past) {m : Move}
    (hm : s.nextMove? = some m) (hfire : ∀ t ∈ s.moveTurns m, ∀ timer, t.2 ≠ .fire timer) :
    (s.move m).Sweeping := by
  have hlane : ((s.move m).engine.lanes.get .immediate).Sublist
      (s.engine.lanes.get .immediate) := by
    rw [engine_move hsound hm]
    exact s.engine.lanes_run_sublist (isQuiet_of_isOwn (s.moveTurns_isOwn m) hfire) .immediate
  have hempty : s.engine.lanes.get .immediate = [] →
      (s.move m).engine.lanes.get .immediate = [] := by
    intro hnil
    rw [hnil] at hlane
    exact List.sublist_nil.mp hlane
  have hother : (s.move m).drain = s.drain → (s.move m).Sweeping := by
    intro hdrain
    constructor
    · rw [hdrain]
      exact h.thorough
    · rw [hdrain]
      exact h.lanes.imp_right fun hdone => ⟨hdone.1, hempty hdone.2⟩
  -- Only the drain that was asked for changes the lanes that are to come.
  cases m with
  | drainOnTick t => exact hother (s.drain_stepDrain t.drain)
  | drain =>
    have hdrain : (s.move .drain).drain = (s.stepDrain s.drain).2 := rfl
    rcases h.lanes with hlanes | ⟨hlanes, hnil⟩
    · -- The lane is still to be emptied: it is done with the first batch that is empty.
      obtain ⟨hthorough, hleft⟩ := stepDrain_thorough (s := s) h.thorough hlanes
      constructor
      · rw [hdrain]
        exact hthorough
      · rw [hdrain, hleft]
        split
        · next hbatch =>
          exact .inr ⟨rfl, hempty (Engine.lane_eq_nil_of_pull (List.isEmpty_iff.mp hbatch))⟩
        · exact .inl rfl
    · have hstep : (s.stepDrain s.drain).2 = s.drain := by
        unfold stepDrain
        rw [hlanes]
      exact hother (hdrain.trans hstep)
  | _ => exact hother rfl

/-- So does a run in which no timer fires. -/
theorem Sweeping.run (h : s.Sweeping) (hsound : c.Sound s.engine past) (fuel : Nat) (goal : Goal)
    (hfire : ∀ t ∈ runTurns fuel goal s, ∀ timer, t.2 ≠ .fire timer) :
    (Server.run fuel goal s).Sweeping := by
  induction fuel generalizing s past with
  | zero => exact h
  | succ fuel ih =>
    unfold runTurns at hfire
    unfold Server.run
    cases hm : s.nextMove? with
    | some m =>
      simp only [hm, List.forall_mem_append] at hfire
      have hnext : c.Sound (s.move m).engine (past ++ s.engine.history (s.moveTurns m)) := by
        rw [engine_move hsound hm]
        exact hsound.run _
      exact ih (h.move hsound hm hfire.1) hnext hfire.2
    | none =>
      simp only [hm] at hfire
      simp only
      split
      · exact h
      · next hreached =>
        rw [if_neg hreached] at hfire
        cases ht : s.nextStop? goal with
        | none => exact h
        | some t =>
          rw [ht] at hfire
          exact ih (s := s.moveTo t) ⟨h.thorough, h.lanes⟩ hsound hfire

/-! ## What is left at the end -/

/-- When the drain of the most urgent lane has come to its end, and no timer fired meanwhile, then
the lane is empty, and each message that waited in it was tried once. -/
structure Sweeps (e : Engine) (turns : List (Instant × Turn)) : Prop where
  lane : (e.run turns).lanes.get .immediate = []
  once : ∀ m ∈ e.messages, m.status = .queued → m.id ∈ e.lanes.get .immediate →
    (Happening.about m.id (e.history turns)).countP Happening.isBegun = 1

/-- A drain of the most urgent lane that ends without a timer leaves nothing in the lane. -/
theorem Ends.sweeps {turns : List (Instant × Turn)}
    (h : Ends { s with drain := .urgent } s' turns) (hsound : c.Sound s.engine past)
    (hfire : ∀ t ∈ turns, ∀ timer, t.2 ≠ .fire timer) : Sweeps s.engine turns := by
  have hengine : s'.engine = s.engine.run turns := h.engine hsound
  obtain ⟨⟨enough, hreached⟩, hdone⟩ := h
  obtain ⟨rfl, rfl⟩ := hreached enough (Nat.le_refl _)
  have hstart : Sweeping { s with drain := .urgent } := ⟨rfl, .inl rfl⟩
  have hsweep := hstart.run hsound enough .drain hfire
  have hown := isQuiet_of_isOwn (runTurns_isOwn _ enough .drain) hfire
  -- At the end the drain has no lane left, so it has found this one empty.
  have hlane : (s.engine.run (runTurns enough .drain { s with drain := .urgent })).lanes.get
      .immediate = [] := by
    rw [← hengine]
    unfold Drain.isDone at hdone
    rw [Bool.and_eq_true, List.isEmpty_iff] at hdone
    rcases hsweep.lanes with hlanes | ⟨-, hnil⟩
    · rw [hlanes] at hdone
      nomatch hdone.1
    · exact hnil
  refine ⟨hlane, fun m hm hs hmem => ?_⟩
  -- An id that waits in a lane is not in flight, so that it does not stop before its call either.
  have hwaits : s.engine.IsHanded m.id := by
    obtain ⟨v, hat, -⟩ := hsound.life m.id
    refine Engine.isHanded_of_none ?_
    rw [hat.stage?, hat.handle_of_mem_lane hmem]
  refine hsound.countP_isBegun_eq_one hown hm hs hmem (by rw [hlane]; exact List.not_mem_nil) ?_
  rw [← hengine]
  exact isHanded_run (s := { s with drain := .urgent }) hsound hwaits enough .drain

end Server

/-! ## The work is bounded, and drains end -/

/-- What is left to do is bounded, whatever comes as long as nothing new is asked for: the attempts
that begin, the attempts that are recorded, and the batches that a lane gives before it is found
empty, however others go on between them. Where nothing is cancelled either and no timer fires, each
message that waits in a lane is tried once on its way out of it. -/
structure Engine.BoundsWork (e : Engine) : Prop where
  begun : ∀ turns, IsUnasked turns → (e.history turns).countP Happening.isBegun ≤ e.workLeft
  recorded : ∀ turns, IsUnasked turns →
    (e.history turns).countP Happening.isRecord ≤ e.workLeft
  batches : ∀ p others, (∀ n, IsUnasked (others n)) →
    ∃ n ≤ e.allStepsLeft, (e.rounds p others n).lanes.get p = []
  once : ∀ turns, IsQuiet turns → ∀ p, ∀ m ∈ e.messages, m.status = .queued →
    m.id ∈ e.lanes.get p → m.id ∉ (e.run turns).lanes.get p → (e.run turns).IsHanded m.id →
    (Happening.about m.id (e.history turns)).countP Happening.isBegun = 1

/-- The drain of the most urgent lane, which `drainUrgent` asks a running server for, comes to its
end; and if no timer fires meanwhile, it leaves the lane empty, and each message that waited in it
is tried once. -/
structure Server.DrainsUrgent (s s' : Server) (turns : List (Instant × Turn)) : Prop where
  ends : Ends { s with drain := .urgent } s' turns
  engine : s'.engine = s.engine.run turns
  unasked : IsUnasked turns
  sweeps : (∀ t ∈ turns, ∀ timer, t.2 ≠ .fire timer) → Sweeps s.engine turns

/-- In every state that an engine comes to, if the attempts at its channels can be numbered, the
work that is left is bounded, and the drain of the most urgent lane comes to its end. -/
theorem Server.drainUrgent_bounds (registry : List Channel) (templates : TemplateStore)
    (directory : Directory) (policy : Policy) (idSupply : IdSupply)
    (hretries : ∀ c ∈ registry, c.spec.retryPolicy.maxRetries.toNat < 2 ^ 32 - 1) {s : Server}
    {past : List (Instant × Turn)}
    (hrun : s.engine = (Engine.create registry templates directory policy idSupply).run past) :
    s.engine.BoundsWork ∧ ∃ s' turns, s.DrainsUrgent s' turns := by
  have hsound := Engine.run_sound registry templates directory policy idSupply past
  rw [← hrun] at hsound
  have hp : (Engine.create registry templates directory policy idSupply).IsModest :=
    Engine.isModest_of_registry hretries
  have hwork : s.engine.BoundsWork := by
    constructor
    · exact fun turns hturns => hsound.countP_isBegun_le hp hturns
    · exact fun turns hturns => hsound.countP_isRecord_le hp hturns
    · intro p others hothers
      obtain ⟨n, hn, hempty⟩ := hsound.exists_empty_batch hp p hothers
      exact ⟨n, hn, Engine.lane_eq_nil_of_pull hempty⟩
    · exact fun turns hturns p m hm hs hmem hleft hhanded =>
        hsound.countP_isBegun_eq_one hturns hm hs hmem hleft hhanded
  -- That the drain ends does not depend on the bounds; it is the induction on what is `Nearer`.
  obtain ⟨s', turns, hends⟩ :=
    exists_ends (s := { s with drain := .urgent }) hsound hp s.engine.knows_ids
  have hengine : s'.engine = s.engine.run turns := hends.engine hsound
  have hunasked : IsUnasked turns := by
    obtain ⟨enough, hreached⟩ := hends.reached
    obtain ⟨-, rfl⟩ := hreached enough (Nat.le_refl _)
    exact isUnasked_of_isOwn (runTurns_isOwn _ enough .drain)
  exact ⟨hwork, s', turns, hends, hengine, hunasked, hends.sweeps hsound⟩

/-- A message of the highest priority that waits for its first attempt. -/
def waitsUrgently : List (Instant × Turn) :=
  [(.epoch, .sendWebhook { Engine.blaze with severity := .critical } "hook" none)]

/-- There are four attempts left of it, and the drain of its lane comes to its end. -/
theorem waitsUrgently_drains :
    (Server.behind waitsUrgently .epoch).engine.lanes.get .immediate = ["m1"] ∧
    (Server.behind waitsUrgently .epoch).engine.workLeft = 4 ∧
    (Server.behind waitsUrgently .epoch).engine.BoundsWork ∧
    ∃ s' turns, (Server.behind waitsUrgently .epoch).DrainsUrgent s' turns := by
  refine ⟨rfl, rfl, ?_⟩
  exact Server.drainUrgent_bounds [Engine.hook] .withDefaults [] .standard .numbered (by decide) rfl

end Klaxon
