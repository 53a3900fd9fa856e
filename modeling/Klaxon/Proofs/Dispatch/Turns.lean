import Klaxon.Proofs.Dispatch.Lives

/-!
# Turns of the messages that there are

Each turn that brings a message on takes a step with it and leaves the others where they are. The
lemmas `cancel_moves`, `prune_moves`, `pull_moves`, `claim_moves`, `attempt_moves`, `complete_moves`
and `fire_moves` say so of one turn each.
-/

namespace Klaxon

namespace Engine

/-! ## Changes to one message -/

/-- A change to one message leaves the others as they are. -/
theorem putMessage_agrees (e : Engine) (m : Message) {id : String} (h : id ≠ m.id) :
    e.Agrees (e.putMessage m) id :=
  ⟨(e.message?_putMessage m id).trans (if_neg h), fun _ => rfl, rfl, rfl⟩

/-- The end of one flight leaves the other messages as they are. -/
theorem land_agrees (e : Engine) {j id : String} (h : id ≠ j) : e.Agrees (e.land j) id :=
  ⟨rfl, fun _ => rfl, rfl, (e.flightsOf_land j id).trans (if_neg h)⟩

/-- A flight that goes on leaves the other messages as they are. -/
theorem moveFlight_agrees (e : Engine) (s : Stage) {j id : String} (h : id ≠ j) :
    e.Agrees (e.moveFlight j s) id :=
  ⟨rfl, fun _ => rfl, rfl, (e.flightsOf_moveFlight j id s).trans (if_neg h)⟩

/-- The message of an id is changed. -/
theorem At.putMessage {e : Engine} {m m' : Message} {h : Option Handle}
    (hat : e.At m'.id ⟨some m, h⟩) : (e.putMessage m').At m'.id ⟨some m', h⟩ := by
  refine ⟨?_, hat.lanes, hat.timers, hat.flights⟩
  rw [message?_putMessage, if_pos rfl, hat.message]
  rfl

/-- The flight of an id ends. -/
theorem At.land {e : Engine} {id : String} {m : Option Message} {s : Stage}
    (hat : e.At id ⟨m, some (.flight s)⟩) : (e.land id).At id ⟨m, none⟩ :=
  ⟨hat.message, hat.lanes, hat.timers, (e.flightsOf_land id id).trans (if_pos rfl)⟩

/-- The flight of an id goes on. -/
theorem At.moveFlight {e : Engine} {id : String} {m : Option Message} {s : Stage}
    (hat : e.At id ⟨m, some (.flight s)⟩) (s' : Stage) :
    (e.moveFlight id s').At id ⟨m, some (.flight s')⟩ := by
  refine ⟨hat.message, hat.lanes, hat.timers, ?_⟩
  rw [flightsOf_moveFlight, if_pos rfl, hat.flights]
  rfl

/-- The flight of an id ends with the record of an attempt. -/
theorem At.settled {e e₁ : Engine} {m m' : Message} {s : Stage} {t : Option Timer}
    (hat : e.At m'.id ⟨some m, some (.flight s)⟩) (ht : ∀ x, t = some x → x.messageId = m'.id)
    (h : (e.withRecord m' t).Alike e₁) : (e₁.land m'.id).At m'.id ⟨some m', t.map .timer⟩ := by
  have hagrees := h.agrees m'.id
  refine ⟨?_, fun p => ?_, ?_, (e₁.flightsOf_land _ _).trans (if_pos rfl |>.trans ?_)⟩
  · exact hagrees.message.trans hat.putMessage.message
  · have hl := (hagrees.lanes p).trans (hat.lanes p)
    cases t <;> exact hl
  · have hnone : e.timersOf m'.id = [] := hat.timers
    refine hagrees.timers.trans ?_
    cases t with
    | none => rw [withRecord_none]; exact hnone
    | some x =>
      refine (timersOf_append (e.putMessage m') x m'.id).trans ?_
      rw [if_pos (ht x rfl)]
      exact congrArg (· ++ [x]) hnone
  · cases t <;> rfl

/-- The record of an attempt leaves the other messages as they are. -/
theorem settled_agrees {e e₁ : Engine} {m' : Message} {t : Option Timer}
    (ht : ∀ x, t = some x → x.messageId = m'.id) (h : (e.withRecord m' t).Alike e₁) {id : String}
    (hid : id ≠ m'.id) : e.Agrees (e₁.land m'.id) id := by
  have htimers : (e.putMessage m').Agrees (e.withRecord m' t) id := by
    refine ⟨rfl, fun _ => rfl, ?_, rfl⟩
    cases t with
    | none => rw [withRecord_none]
    | some x =>
      refine (timersOf_append (e.putMessage m') x id).trans (if_neg fun hx => hid ?_)
      exact hx.symm.trans (ht x rfl)
  exact (((e.putMessage_agrees m' hid).trans htimers).trans (h.agrees id)).trans
    (e₁.land_agrees hid)

namespace Recorded

variable {e e₁ e₂ : Engine} {spec : ChannelSpec} {attemptedAt now : Instant} {report : Report}
  {m m' : Message} {content : Option RenderedContent} {t : Option Timer}

/-- With its flight at an end, a message is where the record of its attempt says. -/
theorem at_land (h : e₁.Recorded spec attemptedAt now report (withNewContent m content) m' t e₂)
    (hae : e.Alike e₁) {s : Stage} (hat : e.At m.id ⟨some m, some (.flight s)⟩) :
    (e₂.land m.id).At m.id ⟨some m', t.map .timer⟩ := by
  have hsame := (m.sameOrigin_withNewContent content).trans h.settles.sameOrigin
  rw [← hsame.id] at hat ⊢
  exact hat.settled h.settles.timer_messageId ((hae.withRecord m' t).trans h.alike)

/-- The other messages stay where they are. -/
theorem land_agrees
    (h : e₁.Recorded spec attemptedAt now report (withNewContent m content) m' t e₂)
    (hae : e.Alike e₁) {id : String} (hid : id ≠ m.id) : e.Agrees (e₂.land m.id) id := by
  have hsame := (m.sameOrigin_withNewContent content).trans h.settles.sameOrigin
  rw [← hsame.id] at hid ⊢
  exact settled_agrees h.settles.timer_messageId ((hae.withRecord m' t).trans h.alike) hid

end Recorded

/-- The end of an attempt is seen as its message is stored. -/
theorem recorded_of_at {e : Engine} {id : String} {m : Message} {h : Option Handle}
    (hat : e.At id ⟨some m, h⟩) (now : Instant) : e.recorded id now = [.recorded m now] := by
  unfold recorded
  rw [hat.message]
  rfl

/-- A claim leaves the other messages as they are. -/
theorem claim_agrees (e : Engine) (now : Instant) {j id : String} (h : id ≠ j) :
    e.Agrees (e.claim j now) id := by
  unfold claim
  -- Where the message is gone or no longer waits, the flight just ends.
  cases hm : e.message? j with
  | none => exact e.land_agrees h
  | some m =>
    cases hb : m.beginSending with
    | error error =>
      simp only [hb]
      exact e.land_agrees h
    | ok m' =>
      simp only [hb]
      have hid : m'.id = j := by
        rw [(Message.moveTo_eq_ok hb).2]
        exact (id_of_message?_eq_some hm : m.id = j)
      rw [← hid] at h
      exact (e.putMessage_agrees m' h).trans ((e.putMessage m').moveFlight_agrees _ (hid ▸ h))

/-- A timer that fires leaves the other messages as they are. -/
theorem fire_agrees (e : Engine) (timer : Timer) {id : String} (h : id ≠ timer.messageId) :
    e.Agrees (e.fire timer) id := by
  have herase : e.Agrees { e with timers := e.timers.erase timer } id :=
    ⟨rfl, fun _ => rfl, (timersOf_erase e timer id).trans (if_neg fun hx => h hx.symm), rfl⟩
  unfold fire requeue
  split
  · split
    · refine herase.trans ⟨rfl, fun p => ?_, rfl, rfl⟩
      refine (count_push e.lanes timer.priority p timer.messageId id).trans ?_
      rw [if_neg fun hx => h hx.2.symm]
      rfl
    · exact herase
  · exact herase

/-! ## Turns -/

variable {e₀ e : Engine} {past : List Happening}

/-- A turn that nothing is there for. -/
theorem Sound.stays (h : Sound e₀ e past) (now : Instant) : Moves e₀ e now [] e :=
  h.movesNone now (.refl e) fun _ => rfl

/-- A cancellation takes a step with the message of its id, or none. -/
theorem cancel_moves (h : Sound e₀ e past) (now : Instant) (id : String) :
    Moves e₀ e now (e.happenings now (.cancel id)) (e.turn now (.cancel id)) := by
  obtain ⟨⟨_, handle⟩, hat, -⟩ := h.life id
  simp only [turn, happenings, cancel]
  cases hm : e.message? id with
  | none => exact h.stays now
  | some m =>
    cases hc : m.cancel with
    | error error =>
      simp only [hc]
      exact h.stays now
    | ok m' =>
      simp only [hc]
      -- Only a message that waits can be cancelled.
      obtain ⟨hallows, hm'⟩ := Message.moveTo_eq_ok hc
      have hs := (Message.allows_iff_queued (.inr rfl)).mp hallows
      have hid : m'.id = id := by
        rw [hm']
        exact (id_of_message?_eq_some hm : m.id = id)
      subst hid
      obtain rfl := hm.symm.trans hat.message
      have hput := alike_statistics (e.putMessage m') e.statistics.recordCancelled
      have hstep : Step e₀ m'.id now ⟨some m, handle⟩ [.cancelled m' now] ⟨some m', handle⟩ := by
        rw [hm']
        exact .cancelled hs
      exact h.movesOne now ⟨rfl, rfl, rfl, rfl⟩ (map_id_putMessage e m') (fun _ => rfl)
        (fun i hi => (e.putMessage_agrees m' hi).trans (hput.agrees i)) hat
        (hat.putMessage.congr (hput.agrees m'.id)) hstep

/-- A message is found after a pruning if it was found before and is not expired. -/
theorem Sound.message?_prune (h : Sound e₀ e past) (before : Instant) (id : String) :
    (e.prune before).1.message? id = (e.message? id).filter fun m => !isExpired m before :=
  find?_filter_of_nodup h.nodup _ id

/-- A pruning forgets the messages that are expired, and takes no step with the others. -/
theorem prune_moves (h : Sound e₀ e past) (now before : Instant) :
    Moves e₀ e now (e.happenings now (.prune before)) (e.turn now (.prune before)) := by
  refine (?_ : Moves e₀ e now [] (e.prune before).1)
  refine ⟨⟨rfl, rfl, rfl, rfl⟩, ?_, fun _ => rfl, ?_⟩
  · exact h.nodup.sublist (List.filter_sublist.map Message.id)
  · rintro id ⟨m, handle⟩ hat -
    have hmessage : (e.prune before).1.message? id =
        m.filter fun m => !isExpired m before := by
      rw [h.message?_prune, hat.message]
    have hat' : (e.prune before).1.At id ⟨m.filter fun m => !isExpired m before, handle⟩ :=
      ⟨hmessage, hat.lanes, hat.timers, hat.flights⟩
    refine ⟨_, hat', ?_⟩
    -- A message that is found before and not after is expired, which only a message at its end is.
    cases m with
    | none => exact .stay _
    | some m =>
      cases hx : isExpired m before with
      | false =>
        simp only [Option.filter_some, hx, Bool.not_false, if_true]
        exact .stay _
      | true =>
        simp only [Option.filter_some, hx, Bool.not_true, Bool.false_eq_true, if_false]
        unfold isExpired at hx
        rw [Bool.and_eq_true] at hx
        exact .forgotten hx.1

/-- A pull takes the front of one lane into flight: a step for each message of the batch. -/
theorem pull_moves (h : Sound e₀ e past) (now : Instant) (p : Priority) :
    Moves e₀ e now (e.happenings now (.pull p)) (e.turn now (.pull p)) := by
  refine (?_ : Moves e₀ e now [] (e.pull p).1)
  refine ⟨⟨rfl, rfl, rfl, rfl⟩, h.nodup, fun _ => rfl, ?_⟩
  rintro id ⟨m, handle⟩ hat -
  have hcount := fun q => count_pull e.lanes p q (e.policy.batchSize p) id
  have hflights := e.flightsOf_pull p id
  rw [hat.flights] at hflights
  have hlane : (e.lanes.get p).count id = Handle.laneCount handle p := hat.lanes p
  cases htaken : (e.pull p).2.count id with
  | zero =>
    -- The batch is without the id.
    rw [htaken] at hflights
    refine ⟨_, ⟨hat.message, fun q => ?_, hat.timers, ?_⟩, .stay _⟩
    · rw [← hat.lanes q, ← hcount q]
      show _ = _ + if q = p then (e.pull p).2.count id else 0
      rw [htaken, ite_self]
      rfl
    · exact hflights.trans (List.append_nil _)
  | succ n =>
    -- The id stands in the lane, so that this is its handle, and it is in the batch once.
    have hp := hcount p
    rw [if_pos rfl] at hp
    have htaken' : (e.lanes.pull p (e.policy.batchSize p)).2.count id = n + 1 := htaken
    rw [htaken', hlane] at hp
    cases handle with
    | none => simp [Handle.laneCount] at hp
    | some handle =>
      cases handle with
      | timer t => simp [Handle.laneCount] at hp
      | flight s => simp [Handle.laneCount] at hp
      | lane q =>
        have hq : p = q := Decidable.byContradiction fun hne => by
          simp [Handle.laneCount, hne] at hp
        subst hq
        simp only [Handle.laneCount, if_true] at hp
        obtain rfl : n = 0 := by omega
        rw [htaken] at hflights
        refine ⟨⟨m, some (.flight .pulled)⟩,
          ⟨hat.message, fun r => ?_, hat.timers, hflights⟩, .pulled⟩
        have hr := hcount r
        rw [htaken', hat.lanes r] at hr
        simp only [Handle.laneCount, Nat.zero_add] at hr ⊢
        show ((e.lanes.pull p (e.policy.batchSize p)).1.get r).count id = 0
        omega

/-- A claim takes a step with the message of its flight. -/
theorem claim_moves (h : Sound e₀ e past) (now : Instant) (id : String) :
    Moves e₀ e now (e.happenings now (.claim id)) (e.turn now (.claim id)) := by
  simp only [turn, happenings]
  split
  · next hstage =>
    obtain ⟨⟨_, handle⟩, hat, -⟩ := h.life id
    obtain rfl := hat.handle_of_stage? hstage
    -- The flight of a message that does not wait ends.
    have hskip (hs : ∀ m, e.message? id = some m → m.status ≠ .queued) :
        Moves e₀ e now [] (e.land id) :=
      h.movesOne now ⟨rfl, rfl, rfl, rfl⟩ rfl (fun _ => rfl) (fun _ hi => e.land_agrees hi) hat
        hat.land
        (.skipped fun m hm => hs m (hat.message.trans hm))
    unfold claim
    cases hm : e.message? id with
    | none => exact hskip fun m hm' => by simp [hm] at hm'
    | some m =>
      cases hb : m.beginSending with
      | error error =>
        simp only [hb]
        refine hskip fun m' hm' hs => ?_
        obtain rfl := Option.some.inj (hm.symm.trans hm')
        exact Message.moveTo_eq_error hb ((Message.allows_iff_queued (.inl rfl)).mpr hs)
      | ok m' =>
        simp only [hb]
        obtain ⟨hallows, hm'⟩ := Message.moveTo_eq_ok hb
        have hs := (Message.allows_iff_queued (.inl rfl)).mp hallows
        have hid : m'.id = id := by
          rw [hm']
          exact (id_of_message?_eq_some hm : m.id = id)
        subst hid
        obtain rfl := hm.symm.trans hat.message
        have hstep : Step e₀ m'.id now ⟨some m, some (.flight .pulled)⟩ []
            ⟨some m', some (.flight (.claimed m' now))⟩ := by
          rw [hm']
          exact .claimed hs
        exact h.movesOne now ⟨rfl, rfl, rfl, rfl⟩ (map_id_putMessage e m') (fun _ => rfl)
          (fun i hi => (e.putMessage_agrees m' hi).trans
            ((e.putMessage m').moveFlight_agrees _ hi)) hat (hat.putMessage.moveFlight _) hstep
  · exact h.stays now

/-- The message of an id at work is as it was claimed. -/
theorem Sound.claimed (h : Sound e₀ e past) {id : String} {m : Message} {attemptedAt : Instant}
    (hstage : e.stage? id = some (.claimed m attemptedAt)) :
    e.At id ⟨some m, some (.flight (.claimed m attemptedAt))⟩ ∧ m.id = id ∧
      m.status = .sending ∧ e.Routes m := by
  obtain ⟨⟨_, handle⟩, hat, hlife⟩ := h.life id
  obtain rfl := hat.handle_of_stage? hstage
  -- Of all shapes that a message can have, only one has a claimed flight.
  cases hlife.fits.shape with
  | absent hi => exact (hi _ rfl).elim
  | queued _ hi => exact hi.elim
  | cancelled _ hi => exact (hi _ rfl).elim
  | claimed hs =>
    obtain ⟨hid, hr⟩ := hlife.fits.stored m rfl
    exact ⟨hat, hid, hs, hr.of_eq h.templates h.specs⟩

/-- The message of an id whose call is under way is being sent, over the channel of the call. -/
theorem Sound.calling (h : Sound e₀ e past) {id : String} {call : Call}
    (hcall : e.callOf? id = some call) :
    ∃ m, e.At id ⟨some m, some (.flight (.calling call))⟩ ∧ m.id = id ∧ m.status = .sending ∧
      call.channelId = m.channelId ∧ e.Routes m := by
  obtain ⟨⟨_, handle⟩, hat, hlife⟩ := h.life id
  obtain rfl := hat.handle_of_callOf? hcall
  -- Of all shapes that a message can have, only one has a call under way.
  cases hlife.fits.shape with
  | absent hi => exact (hi _ rfl).elim
  | queued _ hi => exact hi.elim
  | cancelled _ hi => exact (hi _ rfl).elim
  | @calling m _ hs hc =>
    obtain ⟨hid, hr⟩ := hlife.fits.stored m rfl
    exact ⟨m, hat, hid, hs, hc, hr.of_eq h.templates h.specs⟩

/-- The record of an attempt, as the step of a message that is being sent. -/
theorem Sound.settles (h : Sound e₀ e past) {e₁ e₂ : Engine} {now attemptedAt : Instant}
    {spec : ChannelSpec} {rendered : Option RenderedContent} {report : Report} {m m' : Message}
    {t : Option Timer} {s : Stage} {seen : Happening} (hae : e.Alike e₁)
    (hseen : ∀ w, e₁.tally w = w.bump (e.tally w) seen)
    (hrecorded : e₁.Recorded spec attemptedAt now report (withNewContent m rendered) m' t e₂)
    (hat : e.At m.id ⟨some m, some (.flight s)⟩)
    (hstep : Step e₀ m.id now ⟨some m, some (.flight s)⟩ [seen, .recorded m' now]
      ⟨some m', t.map .timer⟩) :
    Moves e₀ e now (seen :: (e₂.land m.id).recorded m.id now) (e₂.land m.id) := by
  -- What is recorded is seen as it is stored behind the turn.
  have hat' := hrecorded.at_land hae hat
  have halike := (hae.withRecord m' t).trans hrecorded.alike
  have hids : (e₂.land m.id).messages.map Message.id = e.messages.map Message.id := by
    rw [← map_id_putMessage e m']
    exact congrArg (List.map Message.id) halike.messages
  rw [recorded_of_at hat']
  refine h.movesOne now ⟨halike.templates, halike.idSupply, halike.specs, halike.made⟩ hids
    (fun w => ?_)
    (fun i hi => hrecorded.land_agrees hae hi) hat hat' hstep
  simp only [List.foldl_cons, List.foldl_nil, ← hseen]
  exact hrecorded.tally w

/-- An attempt takes a step with the message that was claimed: a call goes out, or a refusal is
recorded. -/
theorem attempt_moves (h : Sound e₀ e past) (now : Instant) (id : String) :
    Moves e₀ e now (e.happenings now (.attempt id)) (e.turn now (.attempt id)) := by
  simp only [turn, happenings]
  split
  · next m attemptedAt hstage =>
    obtain ⟨hat, rfl, hs, hr⟩ := h.claimed hstage
    rcases e.attempt_spec hat.message hs hr attemptedAt now with
      ⟨call, e₁, hfor, halike, htally, heq⟩ |
      ⟨spec, content, rendered, m', t, e₁, e₂, hspec, hcontent, halike, htally, hrecorded, heq⟩
    · -- A call goes out.
      simp only [heq]
      obtain ⟨content, hcontent, hdelivery⟩ := hfor.content
      rw [contentOf_congr h.templates] at hcontent
      exact h.movesOne now ⟨halike.templates, halike.idSupply, halike.specs, halike.made⟩
        (congrArg (List.map Message.id) halike.messages) htally
        (fun i hi => (halike.agrees i).trans (e₁.moveFlight_agrees _ hi)) hat
        ((hat.congr (halike.agrees m.id)).moveFlight _)
        (.called ⟨hfor.channelId, hfor.attemptedAt, content, hcontent, hdelivery⟩)
    · -- The attempt is refused before a call, by the template or by the rate limit.
      simp only [heq]
      rw [contentOf_congr h.templates] at hcontent
      rw [h.spec?] at hspec
      exact h.settles halike htally hrecorded hat (.refused hspec hcontent hrecorded.settles)
  · exact h.stays now

/-- The answer to a call takes a step with the message that was called for. -/
theorem complete_moves (h : Sound e₀ e past) (now : Instant) (id : String) (report : Report) :
    Moves e₀ e now (e.happenings now (.complete id report)) (e.turn now (.complete id report)) := by
  simp only [turn, happenings]
  cases hcall : e.callOf? id with
  | none =>
    -- An answer that no call waits for changes nothing.
    have hstay : e.complete id report now = e := by
      unfold complete
      rw [hcall]
    rw [hstay]
    exact h.stays now
  | some call =>
    obtain ⟨m, hat, rfl, hs, hc, hr⟩ := h.calling hcall
    obtain ⟨spec, m', t, e₁, hspec, hrecorded, heq⟩ :=
      e.complete_spec hat.message hs hr hcall hc report now
    rw [heq]
    rw [h.spec?] at hspec
    exact h.settles (.refl e) (fun _ => rfl) hrecorded hat (.completed hspec hrecorded.settles)

/-- A timer that fires takes a step with its message: it goes back into its lane if it still waits.
-/
theorem fire_moves (h : Sound e₀ e past) (now : Instant) (timer : Timer) :
    Moves e₀ e now (e.happenings now (.fire timer)) (e.turn now (.fire timer)) := by
  simp only [turn, happenings]
  split
  · next hmem =>
    obtain ⟨⟨m, handle⟩, hat, -⟩ := h.life timer.messageId
    obtain rfl : handle = some (.timer timer) := hat.handle_of_mem_timers hmem
    have herase : { e with timers := e.timers.erase timer }.At timer.messageId ⟨m, none⟩ := by
      refine ⟨hat.message, hat.lanes, ?_, hat.flights⟩
      rw [timersOf_erase, if_pos rfl, hat.timers]
      simp [Handle.timers]
    have hothers : ∀ id, id ≠ timer.messageId → e.Agrees (e.fire timer) id := fun _ hid =>
      e.fire_agrees timer hid
    have hmessage : { e with timers := e.timers.erase timer }.message? timer.messageId = m :=
      hat.message
    -- The timer is gone in any case; what else happens depends on the message that is found for it.
    unfold fire requeue at hothers ⊢
    rw [hmessage] at hothers ⊢
    cases m with
    | none =>
      exact h.movesOne now ⟨rfl, rfl, rfl, rfl⟩ rfl (fun _ => rfl) hothers hat herase
        (.dropped fun m' hm' => by simp at hm')
    | some m =>
      by_cases hs : m.status = .queued
      · simp only [hs, if_true] at hothers ⊢
        refine h.movesOne now ⟨rfl, rfl, rfl, rfl⟩ rfl (fun _ => rfl) hothers hat ?_ (.fired hs)
        refine ⟨herase.message, fun p => ?_, herase.timers, herase.flights⟩
        refine (count_push e.lanes timer.priority p timer.messageId timer.messageId).trans ?_
        rw [hat.lanes p]
        simp [Handle.laneCount]
      · simp only [hs, if_false] at hothers ⊢
        exact h.movesOne now ⟨rfl, rfl, rfl, rfl⟩ rfl (fun _ => rfl) hothers hat herase
          (.dropped fun m' hm' => Option.some.inj hm' ▸ hs)
  · exact h.stays now

end Engine

end Klaxon
