import Klaxon.Proofs.Dispatch.Frame
import Klaxon.Proofs.Server.Sessions

/-!
# The last drain of a session

When its lines have ended, a session stops the ticker and takes one more batch from each lane. So
whatever stands in the first batch of its lane then does not wait for its first attempt any more
when the session is over (`close_attemptsFirstBatches`). What stands behind the first batch is left
in the lane: `bigCrew_leavesUntried` is a session that ends with a message that is ready and was
never tried.

An id of a first batch stays there until a drain takes it, whichever drain that is
(`move_firstBatch`). Once its message was taken up it is not untried again, whatever happens
(`Engine.Tried.reaches`).
-/

namespace Klaxon

/-- A message that waits for its first attempt. -/
def Message.IsUntried (m : Message) : Prop := m.status = .queued ∧ m.attempts = []

/-! ## Messages that were tried -/

/-- What was tried, or is over, is not untried again. -/
theorem Step.not_isUntried {e₀ : Engine} {id : String} {now : Instant} {hs : List Happening}
    {v v' : Position} (h : Step e₀ id now v hs v')
    (hv : ∀ m, v.message = some m → ¬ m.IsUntried) :
    ∀ m, v'.message = some m → ¬ m.IsUntried := by
  intro m' hm'
  have hrecorded : ∀ {spec : ChannelSpec} {attemptedAt now : Instant} {report : Report}
      {m m' : Message} {t : Option Timer}, m.Settles spec attemptedAt now report m' t →
      ¬ m'.IsUntried := by
    intro spec attemptedAt now report m m' t hset hu
    obtain ⟨a, -, ha⟩ := hset.attempts
    rw [hu.2] at ha
    exact absurd (congrArg List.length ha) (by simp)
  -- A step that settles an attempt leaves it in the log; a claim or a cancellation ends the
  -- waiting.
  cases h with
  | stay => exact hv m' hm'
  | cancelled =>
    obtain rfl := Option.some.inj hm'
    exact fun hu => absurd hu.1 (by simp)
  | forgotten => simp at hm'
  | pulled => exact hv m' hm'
  | skipped => exact hv m' hm'
  | claimed =>
    obtain rfl := Option.some.inj hm'
    exact fun hu => absurd hu.1 (by simp)
  | called => exact hv m' hm'
  | refused _ _ hset =>
    obtain rfl := Option.some.inj hm'
    exact hrecorded hset
  | completed _ hset =>
    obtain rfl := Option.some.inj hm'
    exact hrecorded hset
  | fired => exact hv m' hm'
  | dropped => exact hv m' hm'

/-- An id that nothing was seen of is nowhere. -/
theorem Life.eq_nowhere {e₀ : Engine} {id : String} {past : List Happening} {v : Position}
    (h : Life e₀ id past v) (hpast : past = []) : v = ⟨none, none⟩ := by
  induction h with
  | nowhere => rfl
  | made => simp at hpast
  | step _ hstep ih =>
    obtain rfl := ih (List.append_eq_nil_iff.mp hpast).1
    exact hstep.of_nowhere.1

namespace Engine

variable {c e : Engine} {past : List Happening} {id : String}

/-- A message of the id was made, in a run from an engine, and does not wait for its first
attempt. -/
structure Tried (c e : Engine) (id : String) : Prop where
  made : ∃ past, c.Sound e past ∧ Happening.about id past ≠ []
  message : ∀ m, e.message? id = some m → ¬ m.IsUntried

/-- What was tried stays so in every turn. -/
theorem Tried.turn (h : Tried c e id) (now : Instant) (t : Turn) :
    Tried c (e.turn now t) id := by
  obtain ⟨⟨past, hsound, hmade⟩, hmessage⟩ := h
  refine ⟨⟨_, turn_sound hsound now t, ?_⟩, fun m' hm' => ?_⟩
  · rw [Happening.about_append]
    exact List.append_ne_nil_of_left_ne_nil hmade _
  · obtain ⟨v, hat, hlife⟩ := hsound.life id
    have hv : ∀ m, v.message = some m → ¬ m.IsUntried := fun m hm =>
      hmessage m (hat.message.trans hm)
    cases ht : t.isRequest with
    | true =>
      -- A message that is made has another id.
      rcases hsound.receives_at (e.turn_receives now ht) id with
        ⟨hagrees, -⟩ | ⟨_, -, hnone, -⟩
      · exact hmessage m' (hagrees.message.symm.trans hm')
      · exact absurd hnone hmade
    | false =>
      obtain ⟨v', hat', hstep⟩ := (turn_moves hsound now ht).step id v hat hlife.fits
      exact hstep.not_isUntried hv m' (hat'.message.symm.trans hm')

/-- What was tried stays so in every run. -/
theorem Tried.reaches (h : Tried c e id) {e' : Engine} (hr : e.Reaches e') : Tried c e' id := by
  obtain ⟨turns, rfl⟩ := hr
  induction turns generalizing e with
  | nil => exact h
  | cons t rest ih => exact ih (h.turn t.1 t.2)

/-- A pulled id that is taken up is tried. -/
theorem Sound.tried_takeUp (h : c.Sound e past) (hp : e.stage? id = some .pulled)
    (now : Instant) : Tried c (e.takeUp id now).1 id := by
  rw [takeUp_eq_turn]
  refine Tried.turn ⟨?_, fun m' hm' => ?_⟩ now _
  · have hturn : e.turn now (.claim id) = e.claim id now := by simp only [Engine.turn, hp]
    obtain ⟨v, hat, hlife⟩ := h.life id
    refine ⟨_, hturn ▸ turn_sound h now (.claim id), ?_⟩
    rw [Happening.about_append]
    refine List.append_ne_nil_of_left_ne_nil (fun hnone => ?_) _
    obtain rfl := hlife.eq_nowhere hnone
    simpa using hat.handle_of_stage? hp
  · -- The claim succeeds if the message waits.
    intro hu
    unfold claim at hm'
    split at hm'
    · next hnone =>
      have : e.message? id = some m' := hm'
      simp [hnone] at this
    · next m hm =>
      split at hm'
      · next error herror =>
        obtain rfl := Option.some.inj (hm.symm.trans hm')
        exact Message.moveTo_eq_error herror ((Message.allows_iff_queued (.inl rfl)).mpr hu.1)
      · next claimed hclaimed =>
        obtain ⟨-, rfl⟩ := Message.moveTo_eq_ok hclaimed
        have hid : id = m.id := (id_of_message?_eq_some hm).symm
        have hput := e.message?_putMessage { m with status := .sending } id
        rw [if_pos hid, hm] at hput
        obtain rfl := Option.some.inj (hput.symm.trans hm')
        exact absurd hu.1 (by simp)

end Engine

namespace Server

variable {c : Engine} {past : List Happening} {s : Server} {id : String} {p : Priority}

/-! ## Batches -/

/-- The work on ids leaves the lanes alone. -/
theorem undisturbed_begin (s : Server) (id : String) :
    s.engine.Undisturbed (s.begin id).1.engine := by
  have htaken := s.engine.undisturbed_takeUp id s.now
  rcases s.engine_begin id with hbegin | ⟨report, now, hbegin⟩
  · rw [hbegin]
    exact htaken
  · rw [hbegin]
    exact htaken.trans (Engine.undisturbed_complete _ id report now)

/-- The work on a batch leaves the lanes alone. -/
theorem undisturbed_beginAll (s : Server) (ids : List String) :
    s.engine.Undisturbed (s.beginAll ids).1.engine := by
  induction ids generalizing s with
  | nil => exact .refl _
  | cons id rest ih => exact (s.undisturbed_begin id).trans (ih _)

/-- All ids of a batch are tried. -/
theorem tried_beginAll (h₀ : c.Sound s.engine past) {ids : List String} (hn : ids.Nodup)
    (hp : ∀ j ∈ ids, s.engine.stage? j = some .pulled) (hid : id ∈ ids) :
    Engine.Tried c (s.beginAll ids).1.engine id := by
  induction ids generalizing s past with
  | nil => simp at hid
  | cons j rest ih =>
    obtain ⟨hhead, hrest⟩ := List.nodup_cons.mp hn
    obtain ⟨hbegun, hothers⟩ :=
      RunsFrom.begin (.refl s.engine : s.RunsFrom s.engine) h₀ (hp j List.mem_cons_self)
    obtain ⟨past', hsound⟩ := h₀.of_reaches hbegun
    have hpulled : ∀ i ∈ rest, (s.begin j).1.engine.stage? i = some .pulled := fun i hi =>
      (hothers i fun he => hhead (he ▸ hi)).trans (hp i (List.mem_cons_of_mem j hi))
    rcases List.mem_cons.mp hid with rfl | hid
    · -- The id is the first of the batch: it is taken up now, and stays tried while the others are.
      have htaken := h₀.tried_takeUp (hp id List.mem_cons_self) s.now
      have hbegin : Engine.Tried c (s.begin id).1.engine id := by
        rcases s.engine_begin id with heq | ⟨report, now, heq⟩
        · rw [heq]
          exact htaken
        · rw [heq]
          exact htaken.turn now (.complete id report)
      exact hbegin.reaches (RunsFrom.beginAll (.refl _) hsound hrest hpulled)
    · exact ih hsound hrest hpulled hid

/-! ## First batches -/

/-- An id stands in the first batch of a lane. -/
def InFirstBatch (s : Server) (p : Priority) (id : String) : Prop :=
  id ∈ (s.engine.lanes.get p).take (s.engine.policy.batchSize p)

/-- Where the lanes stay, first batches do. -/
theorem InFirstBatch.congr {s' : Server} (h : s.InFirstBatch p id)
    (hu : s.engine.Undisturbed s'.engine) : s'.InFirstBatch p id := by
  unfold InFirstBatch
  rw [hu.lanes, hu.policy]
  exact h

/-- The batch that a drain takes is tried, and the first batches of the other lanes stay. -/
theorem stepDrain_firstBatch (h₀ : c.Sound s.engine past) (h : s.InFirstBatch p id) {d : Drain}
    {lane : Priority} {rest : List Priority} (hd : d.lanes = lane :: rest) :
    if p = lane then Engine.Tried c (s.stepDrain d).1.engine id
    else (s.stepDrain d).1.InFirstBatch p id := by
  unfold stepDrain
  rw [hd]
  simp only
  obtain ⟨past', hsound⟩ := h₀.of_reaches (s.engine.reaches_turn s.now (.pull lane))
  split
  · next heq =>
    subst heq
    refine tried_beginAll (s := { s with engine := (s.engine.pull p).1 }) hsound
      (h₀.nodup_pull p) (fun j hj => h₀.pulled_of_pull p hj) ?_
    exact h
  · next hne =>
    have hpull : InFirstBatch { s with engine := (s.engine.pull lane).1 } p id := by
      have hlane : (s.engine.pull lane).1.lanes.get p = s.engine.lanes.get p :=
        (Lanes.get_pull s.engine.lanes lane p _).trans (if_neg hne)
      unfold InFirstBatch
      simp only
      rw [hlane]
      exact h
    exact hpull.congr (undisturbed_beginAll _ _)

/-- A timer that ends puts its id behind the others. -/
theorem InFirstBatch.fire (h : s.InFirstBatch p id) (timer : Timer) :
    InFirstBatch { s with engine := s.engine.fire timer } p id := by
  have hpush : ∀ j, id ∈ ((s.engine.lanes.push timer.priority j).get p).take
      (s.engine.policy.batchSize p) := fun j => by
    rw [Lanes.get_push]
    split
    · rw [List.take_append]
      exact List.mem_append_left _ h
    · exact h
  unfold InFirstBatch Engine.fire Engine.requeue
  simp only
  split
  · split
    · exact hpush _
    · exact h
  · exact h

/-- Whatever happens, an id of a first batch stays there or is tried. -/
theorem move_firstBatch (h₀ : c.Sound s.engine past) {m : Move} (hm : s.nextMove? = some m)
    (h : Engine.Tried c s.engine id ∨ s.InFirstBatch p id) :
    Engine.Tried c (s.move m).engine id ∨ (s.move m).InFirstBatch p id := by
  rcases h with h | h
  · exact .inl (h.reaches (RunsFrom.move (.refl s.engine : s.RunsFrom s.engine) h₀ hm))
  · have hdrain : ∀ d : Drain, Engine.Tried c (s.stepDrain d).1.engine id ∨
        (s.stepDrain d).1.InFirstBatch p id := by
      intro d
      cases hd : d.lanes with
      | nil =>
        right
        unfold stepDrain
        rw [hd]
        exact h
      | cons lane rest =>
        have hstep := stepDrain_firstBatch h₀ h hd
        split at hstep
        · exact .inl hstep
        · exact .inr hstep
    cases m with
    | fire timer => exact .inr (h.fire timer)
    | answer call =>
      exact .inr (h.congr (s.engine.undisturbed_complete call.messageId call.report s.now))
    | tick => exact .inr h
    | drainOnTick t => exact hdrain t.drain
    | prune => exact .inr h
    | drain => exact hdrain s.drain

/-- As time passes, an id of a first batch stays there or is tried. -/
theorem run_firstBatch (h₀ : c.Sound s.engine past)
    (h : Engine.Tried c s.engine id ∨ s.InFirstBatch p id) (fuel : Nat) (goal : Goal) :
    Engine.Tried c (Server.run fuel goal s).engine id ∨
      (Server.run fuel goal s).InFirstBatch p id := by
  -- The invariant holds the engine sound beside the outlook, as each move needs it.
  refine (run_induction (P := fun s => (∃ past, c.Sound s.engine past) ∧
    (Engine.Tried c s.engine id ∨ s.InFirstBatch p id)) ?_ (fun _ _ h => h) fuel goal
      ⟨⟨past, h₀⟩, h⟩).2
  rintro s m ⟨⟨past, hsound⟩, h⟩ hm
  exact ⟨hsound.of_reaches (RunsFrom.move (.refl s.engine : s.RunsFrom s.engine) hsound hm),
    move_firstBatch hsound hm h⟩

/-- While the server stops, an id of a first batch stays there or is tried. -/
theorem stop_firstBatch (h₀ : c.Sound s.engine past) (h : s.InFirstBatch p id) :
    Engine.Tried c s.stop.engine id ∨ s.stop.InFirstBatch p id := by
  unfold Server.stop
  split
  · exact run_firstBatch (s := { s with running := false }) h₀ (.inr h) patience .ticker
  · exact .inr h

/-! ## The drain of all lanes -/

/-- The work on an id leaves the drain as it is. -/
theorem drain_begin (s : Server) (id : String) : (s.begin id).1.drain = s.drain := by
  have hhanded (s : Server) (call : Call) : (s.handOver call).1.drain = s.drain := by
    unfold handOver
    split <;> rfl
  unfold Server.begin
  generalize s.engine.takeUp id s.now = taken
  obtain ⟨engine, call⟩ := taken
  cases call with
  | none => rfl
  | some call =>
    simp only
    split <;> exact hhanded { s with engine } call

/-- The work on a batch leaves the drain as it is. -/
theorem drain_beginAll (s : Server) (ids : List String) :
    (s.beginAll ids).1.drain = s.drain := by
  induction ids generalizing s with
  | nil => rfl
  | cons id rest ih => exact (ih _).trans (s.drain_begin id)

/-- A step of a drain is kept by its taker. -/
theorem drain_stepDrain (s : Server) (d : Drain) : (s.stepDrain d).1.drain = s.drain := by
  unfold stepDrain
  split
  · rfl
  · exact drain_beginAll _ _

/-- A drain that takes one batch from each lane goes from lane to lane. -/
theorem stepDrain_once (s : Server) {d : Drain} (h : d.thorough = false) :
    (s.stepDrain d).2.thorough = false ∧ (s.stepDrain d).2.lanes = d.lanes.tail := by
  unfold stepDrain
  cases hd : d.lanes with
  | nil => exact ⟨h, hd⟩
  | cons lane rest => exact ⟨h, by simp [h]⟩

/-- While all lanes are emptied once, an id of a first batch is tried, or its lane is still to
come. -/
structure Draining (c : Engine) (p : Priority) (id : String) (s : Server) : Prop where
  sound : ∃ past, c.Sound s.engine past
  once : s.drain.thorough = false
  outlook : Engine.Tried c s.engine id ∨ (s.InFirstBatch p id ∧ p ∈ s.drain.lanes)

/-- Whatever happens, the drain goes on. -/
theorem Draining.move (h : Draining c p id s) {m : Move} (hm : s.nextMove? = some m) :
    Draining c p id (s.move m) := by
  obtain ⟨⟨past, hsound⟩, honce, houtlook⟩ := h
  have hruns := RunsFrom.move (.refl s.engine : s.RunsFrom s.engine) hsound hm
  have hsound' := hsound.of_reaches hruns
  -- Only the drain itself changes the lanes that are to come.
  have hkeep (hdrain : (s.move m).drain = s.drain) : Draining c p id (s.move m) := by
    refine ⟨hsound', by rw [hdrain]; exact honce, ?_⟩
    rw [hdrain]
    rcases houtlook with htried | ⟨hfirst, hp⟩
    · exact .inl (htried.reaches hruns)
    · exact (move_firstBatch hsound hm (.inr hfirst)).imp_right fun h => ⟨h, hp⟩
  cases m with
  | fire => exact hkeep rfl
  | answer => exact hkeep rfl
  | tick => exact hkeep rfl
  | drainOnTick t => exact hkeep (s.drain_stepDrain t.drain)
  | prune => exact hkeep rfl
  | drain =>
    obtain ⟨honce', hlanes⟩ := s.stepDrain_once honce
    refine ⟨hsound', honce', ?_⟩
    rcases houtlook with htried | ⟨hfirst, hp⟩
    · exact .inl (htried.reaches hruns)
    · cases hd : s.drain.lanes with
      | nil => simp [hd] at hp
      | cons lane rest =>
        have hstep := stepDrain_firstBatch hsound hfirst hd
        split at hstep
        · exact .inl hstep
        · next hne =>
          have hrest : p ∈ (s.stepDrain s.drain).2.lanes := by
            rw [hlanes, hd]
            rw [hd] at hp
            exact (List.mem_cons.mp hp).resolve_left hne
          exact .inr ⟨hstep, hrest⟩

/-- When one batch was taken from each lane, all ids of first batches are tried. -/
theorem tick_tried (h₀ : c.Sound s.engine past)
    (h : Engine.Tried c s.engine id ∨ s.InFirstBatch p id)
    (hdone : s.tick.1.drain.isDone s.tick.1.calls = true) :
    Engine.Tried c s.tick.1.engine id := by
  have hstart : Draining c p id { s with drain := .everyLane } :=
    ⟨⟨past, h₀⟩, rfl, h.imp_right fun hfirst => ⟨hfirst, p.mem_all⟩⟩
  have hend : Draining c p id s.tick.1 :=
    run_induction (fun _ _ h hm => h.move hm) (fun _ _ h => ⟨h.sound, h.once, h.outlook⟩)
      patience .drain hstart
  -- The drain is done, so no lane is to come.
  refine hend.outlook.resolve_right fun hp => ?_
  unfold Drain.isDone at hdone
  rw [Bool.and_eq_true, List.isEmpty_iff] at hdone
  rw [hdone.1] at hp
  simp at hp

end Server

/-! ## Sessions -/

/-- A line that comes in after a time. -/
structure Arrival where
  waitMs : Nat
  /-- The id of the event, if the line gives none. -/
  id : String
  line : String

namespace Session

open Server

/-- A session whose lines come in at their times, up to the end of the lines. -/
def receive (s : Server) : List Arrival → Server
  | [] => s
  | a :: rest =>
    let s := s.advance a.waitMs
    receive (handleLine s a.id s.now a.line).1 rest

/-- The server of a configuration when the lines have ended. -/
def atEnd (config : ServerConfig) (outside : Outside) (now : Instant) (arrivals : List Arrival)
    (waitMs : Nat) (idSupply : IdSupply := .numbered) : Server :=
  (receive (openServer config outside now idSupply) arrivals).advance waitMs

/-- The engine of a session at the end of its lines is sound. -/
theorem atEnd_sound (config : ServerConfig) (outside : Outside) (now : Instant)
    (arrivals : List Arrival) (waitMs : Nat) (idSupply : IdSupply) :
    ∃ past, (assemble Carrier.plugins config idSupply).engine.Sound
      (atEnd config outside now arrivals waitMs idSupply).engine past := by
  have h₀ := assemble_sound Carrier.plugins config idSupply
  have hopen := openServer_runsFrom config outside now idSupply
  unfold atEnd
  generalize (assemble Carrier.plugins config idSupply).engine = e₀ at h₀ hopen ⊢
  have hreceive : (receive (openServer config outside now idSupply) arrivals).RunsFrom e₀ := by
    generalize openServer config outside now idSupply = s at hopen ⊢
    induction arrivals generalizing s with
    | nil => exact hopen
    | cons a rest ih =>
      refine ih _ ?_
      -- A line that is no event is dropped; any other one is a request to the server.
      unfold handleLine
      split
      · exact hopen.advance h₀ a.waitMs
      · exact (hopen.advance h₀ a.waitMs).handleEvent h₀ _
  exact h₀.of_reaches (hreceive.advance h₀ waitMs)

/-- When a session is over, no message that stood in the first batch of its lane at the end of the
lines waits for its first attempt. -/
theorem close_attemptsFirstBatches (config : ServerConfig) (outside : Outside) (now : Instant)
    (arrivals : List Arrival) (waitMs : Nat) (idSupply : IdSupply) {p : Priority} {id : String}
    (hid : (atEnd config outside now arrivals waitMs idSupply).InFirstBatch p id)
    (hdone : (close (atEnd config outside now arrivals waitMs idSupply)).drain.isDone
      (close (atEnd config outside now arrivals waitMs idSupply)).calls = true) :
    ∀ m,
      (close (atEnd config outside now arrivals waitMs idSupply)).engine.message? id = some m →
        ¬ m.IsUntried := by
  obtain ⟨past, hsound⟩ := atEnd_sound config outside now arrivals waitMs idSupply
  generalize atEnd config outside now arrivals waitMs idSupply = s at hid hdone hsound ⊢
  have hstopped := RunsFrom.stop (.refl s.engine : s.RunsFrom s.engine) hsound
  -- The session is closed by a stop and one batch from each lane.
  obtain ⟨past', hsound'⟩ := hsound.of_reaches hstopped
  exact (tick_tried hsound' (stop_firstBatch hsound hid) hdone).message

/-- Every message that stood in a lane at the end of the lines was tried, or had been cancelled,
when the session is over. -/
def DrainsAll (config : ServerConfig) (outside : Outside) (now : Instant)
    (arrivals : List Arrival) (waitMs : Nat) : Prop :=
  (close (atEnd config outside now arrivals waitMs)).drain.isDone
      (close (atEnd config outside now arrivals waitMs)).calls = true →
    ∀ p, ∀ id ∈ (atEnd config outside now arrivals waitMs).engine.lanes.get p, ∀ m,
      (close (atEnd config outside now arrivals waitMs)).engine.message? id = some m →
        m.attempts ≠ [] ∨ m.status = .cancelled

/-- A recipient of alerts in the application. -/
def member (id : String) : Recipient :=
  { id, name := id, locale := none, contacts := [(.inApp, id)], preferences := []
    severityThresholds := [(.medium, [.inApp])], quietHours := none, maxPerHour := none
    maxPerDay := none }

/-- A crew of six, whom a rule notifies of fires. A batch takes five messages of this priority. -/
def bigCrew : ServerConfig :=
  let ids := ["c1", "c2", "c3", "c4", "c5", "c6"]
  { ServerConfig.standard with
    channels := [{
      id := "inbox", name := "Inbox", channelType := .inApp, enabled := true
      config := .object [], retryPolicy := .standard, rateLimit := .standard
      supportedPriorities := [], retryClassification := .all }]
    recipients := ids.map member
    rules := [{
      id := "fire", name := "Fire", description := none, category := "safety", version := 1
      priority := .medium, enabled := true, eventPattern := "*"
      condition := .comparison "kind" .eq (.string "fire"), actions := [.notify ids]
      cooldownSecs := 0 }] }

/-- One line, behind which the lines end. -/
def oneFire : List Arrival :=
  [⟨0, "e1", "\x7b\"event_type\":\"smoke\",\"data\":\x7b\"kind\":\"fire\"\x7d\x7d"⟩]

/-- The last drain of the session ends. -/
theorem bigCrew_isDone : (close (atEnd bigCrew .silent .epoch oneFire 0)).drain.isDone
    (close (atEnd bigCrew .silent .epoch oneFire 0)).calls = true := by decide +kernel

/-- The last message of the first batch is tried. -/
theorem bigCrew_attemptsFirstBatch :
    ∃ m, (close (atEnd bigCrew .silent .epoch oneFire 0)).engine.message? "m5" = some m ∧
      ¬ m.IsUntried := by
  have hfirst : (atEnd bigCrew .silent .epoch oneFire 0).InFirstBatch .normal "m5" := by
    unfold InFirstBatch
    decide +kernel
  have hstored : ((close (atEnd bigCrew .silent .epoch oneFire 0)).engine.message?
      "m5").isSome = true := by decide +kernel
  obtain ⟨m, hm⟩ := Option.isSome_iff_exists.mp hstored
  exact ⟨m, hm,
    close_attemptsFirstBatches bigCrew .silent .epoch oneFire 0 .numbered hfirst bigCrew_isDone m
      hm⟩

/-- The last message is left in its lane. -/
theorem bigCrew_leavesUntried : ¬ DrainsAll bigCrew .silent .epoch oneFire 0 := by
  intro hdrains
  have hwaits : "m6" ∈ (atEnd bigCrew .silent .epoch oneFire 0).engine.lanes.get .normal := by
    decide +kernel
  have hleft : ((close (atEnd bigCrew .silent .epoch oneFire 0)).engine.message? "m6").any
      (fun m => decide (m.status = .queued ∧ m.attempts = [])) = true := by decide +kernel
  obtain ⟨m, hm, huntried⟩ := (Option.any_eq_true _ _).mp hleft
  obtain ⟨hstatus, hattempts⟩ := of_decide_eq_true huntried
  rcases hdrains bigCrew_isDone .normal "m6" hwaits m hm with htried | hcancelled
  · exact htried hattempts
  · rw [hstatus] at hcancelled
    exact absurd hcancelled (by decide)

end Session

end Klaxon
