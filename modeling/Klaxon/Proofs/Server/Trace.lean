import Klaxon.Proofs.Dispatch.Rounds
import Klaxon.Proofs.Server.LastDrain

/-!
# The turns of a server

What a server does with its engine while time passes is a run of the engine. `Server.runTurns` gives
the turns of this run, one move after the other, and `engine_run` says that they are: so all that is
known of runs can be asked of the messages that a drain works on. None of these turns is a request
(`isUnasked_of_isOwn`), and none cancels a message.
-/

namespace Klaxon

/-- A turn that a server takes by itself, as time passes. -/
def Turn.isOwn : Turn → Bool
  | .pull _ | .claim _ | .attempt _ | .complete .. | .fire _ | .prune _ => true
  | _ => false

namespace Server

/-! ## The turns of each move -/

/-- The turns in which an id is taken up. An answer that comes at once is recorded at once. -/
def beginTurns (s : Server) (id : String) : List (Instant × Turn) :=
  (s.now, .claim id) :: (s.now, .attempt id) ::
    match s.engine.takeUp id s.now with
    | (_, none) => []
    | (engine, some call) =>
      let reply := ({ s with engine }.handOver call).2
      if reply.delayMs = 0 then [(s.now, .complete id reply.report)] else []

/-- The turns in which ids are taken up one after the other. -/
def beginAllTurns : Server → List String → List (Instant × Turn)
  | _, [] => []
  | s, id :: rest => s.beginTurns id ++ beginAllTurns (s.begin id).1 rest

/-- The turns of a drain with its next batch. -/
def stepTurns (s : Server) (d : Drain) : List (Instant × Turn) :=
  match d.lanes with
  | [] => []
  | lane :: _ =>
    (s.now, .pull lane) ::
      beginAllTurns { s with engine := (s.engine.pull lane).1 } (s.engine.pull lane).2

/-- The turns of a move. -/
def moveTurns (s : Server) : Move → List (Instant × Turn)
  | .fire timer => [(s.now, .fire timer)]
  | .answer call => [(s.now, .complete call.messageId call.report)]
  | .tick _ => []
  | .drainOnTick t => s.stepTurns t.drain
  | .prune p => [(s.now, .prune (s.now.sub (p.retentionSecs.toNat * Time.second)))]
  | .drain => s.stepTurns s.drain

/-- The turns that are taken while time passes. -/
def runTurns : Nat → Goal → Server → List (Instant × Turn)
  | 0, _, _ => []
  | fuel + 1, goal, s =>
    match s.nextMove? with
    | some m => s.moveTurns m ++ runTurns fuel goal (s.move m)
    | none =>
      if s.reached goal then []
      else
        match s.nextStop? goal with
        | some t => runTurns fuel goal (s.moveTo t)
        | none => []

variable {c e₀ : Engine} {past : List Happening} {s : Server} {id : String}

/-! ## They lead where the server goes -/

/-- To hand a call over takes no time. -/
theorem now_handOver (s : Server) (call : Call) : (s.handOver call).1.now = s.now := by
  unfold handOver
  split <;> rfl

/-- To begin with a pulled id is to take its turns. -/
theorem engine_begin_eq (hp : s.engine.stage? id = some .pulled) :
    (s.begin id).1.engine = s.engine.run (s.beginTurns id) := by
  have hclaim : s.engine.turn s.now (.claim id) = s.engine.claim id s.now := by
    simp only [Engine.turn, hp]
  have htaken := Engine.takeUp_eq_turn s.engine id s.now
  unfold Server.begin beginTurns
  simp only [Engine.run, hclaim, ← htaken]
  generalize s.engine.takeUp id s.now = taken
  obtain ⟨engine, call⟩ := taken
  cases call with
  | none => rfl
  | some call =>
    have hengine := engine_handOver { s with engine } call
    have hnow := now_handOver { s with engine } call
    simp only
    generalize Server.handOver { s with engine } call = handed at hengine hnow
    obtain ⟨s', reply⟩ := handed
    simp only at hengine hnow ⊢
    -- The answer comes at once and is recorded in a turn of its own, or the call stays open.
    split
    · simp only [Engine.run, Engine.turn]
      rw [hengine, hnow]
    · exact hengine

/-- To begin with the ids of a batch is to take their turns. -/
theorem engine_beginAll_eq (h : c.Sound s.engine past) {ids : List String} (hn : ids.Nodup)
    (hp : ∀ id ∈ ids, s.engine.stage? id = some .pulled) :
    (s.beginAll ids).1.engine = s.engine.run (s.beginAllTurns ids) := by
  induction ids generalizing s past with
  | nil => rfl
  | cons id rest ih =>
    obtain ⟨hhead, hrest⟩ := List.nodup_cons.mp hn
    have hbegin := engine_begin_eq (hp id List.mem_cons_self)
    obtain ⟨hruns, hothers⟩ :=
      RunsFrom.begin (.refl s.engine : s.RunsFrom s.engine) h (hp id List.mem_cons_self)
    obtain ⟨past', hsound⟩ := h.of_reaches hruns
    -- The other ids of the batch are still pulled behind the first one.
    have hpulled : ∀ j ∈ rest, (s.begin id).1.engine.stage? j = some .pulled := fun j hj =>
      (hothers j fun he => hhead (he ▸ hj)).trans (hp j (List.mem_cons_of_mem id hj))
    have htail := ih hsound hrest hpulled
    simp only [beginAll, beginAllTurns, Engine.run_append]
    rw [← hbegin]
    exact htail

/-- A step of a drain is its turns. -/
theorem engine_stepDrain_eq (h : c.Sound s.engine past) (d : Drain) :
    (s.stepDrain d).1.engine = s.engine.run (s.stepTurns d) := by
  unfold stepDrain stepTurns
  cases d.lanes with
  | nil => rfl
  | cons lane rest =>
    have hsound := Engine.turn_sound h s.now (.pull lane)
    exact engine_beginAll_eq (s := { s with engine := (s.engine.pull lane).1 }) hsound
      (h.nodup_pull lane) fun id hid => h.pulled_of_pull lane hid

/-- What happens next is its turns. -/
theorem engine_move (h : c.Sound s.engine past) {m : Move} (hm : s.nextMove? = some m) :
    (s.move m).engine = s.engine.run (s.moveTurns m) := by
  cases m with
  | fire timer =>
    have hturn : s.engine.turn s.now (.fire timer) = s.engine.fire timer :=
      if_pos (mem_timers_of_nextMove? hm)
    exact hturn.symm
  | answer => rfl
  | tick => rfl
  | drainOnTick t => exact engine_stepDrain_eq h t.drain
  | prune => rfl
  | drain => exact engine_stepDrain_eq h s.drain

/-- All that happens while time passes is a run of the engine. -/
theorem engine_run (h : c.Sound s.engine past) (fuel : Nat) (goal : Goal) :
    (Server.run fuel goal s).engine = s.engine.run (runTurns fuel goal s) := by
  induction fuel generalizing s past with
  | zero => rfl
  | succ fuel ih =>
    unfold Server.run runTurns
    cases hm : s.nextMove? with
    | some m =>
      have hmove := engine_move h hm
      have hsound : c.Sound (s.move m).engine (past ++ s.engine.history (s.moveTurns m)) := by
        rw [hmove]
        exact h.run _
      simp only [Engine.run_append]
      rw [← hmove]
      exact ih hsound
    | none =>
      -- The clock takes no turn.
      simp only
      split
      · rfl
      · cases s.nextStop? goal with
        | none => rfl
        | some t => exact ih (s := s.moveTo t) h

/-! ## Which turns they are -/

/-- To take up an id a server takes turns of its own, and fires no timer. -/
theorem beginTurns_isOwn (s : Server) (id : String) :
    ∀ t ∈ s.beginTurns id, t.2.isOwn = true ∧ ∀ timer, t.2 ≠ .fire timer := by
  intro t ht
  unfold beginTurns at ht
  rcases List.mem_cons.mp ht with rfl | ht
  · exact ⟨rfl, by simp⟩
  rcases List.mem_cons.mp ht with rfl | ht
  · exact ⟨rfl, by simp⟩
  split at ht
  · simp at ht
  · simp only at ht
    split at ht
    · rw [List.mem_singleton.mp ht]
      exact ⟨rfl, by simp⟩
    · simp at ht

/-- So it does for a batch. -/
theorem beginAllTurns_isOwn (s : Server) (ids : List String) :
    ∀ t ∈ s.beginAllTurns ids, t.2.isOwn = true ∧ ∀ timer, t.2 ≠ .fire timer := by
  induction ids generalizing s with
  | nil => intro t ht; simp [beginAllTurns] at ht
  | cons id rest ih =>
    intro t ht
    rcases List.mem_append.mp ht with ht | ht
    · exact s.beginTurns_isOwn id t ht
    · exact ih (s.begin id).1 t ht

/-- So it does for the step of a drain. -/
theorem stepTurns_isOwn (s : Server) (d : Drain) :
    ∀ t ∈ s.stepTurns d, t.2.isOwn = true ∧ ∀ timer, t.2 ≠ .fire timer := by
  intro t ht
  unfold stepTurns at ht
  split at ht
  · simp at ht
  · rcases List.mem_cons.mp ht with rfl | ht
    · exact ⟨rfl, by simp⟩
    · exact beginAllTurns_isOwn _ _ t ht

/-- Whatever happens next takes turns of the server's own. -/
theorem moveTurns_isOwn (s : Server) (m : Move) : ∀ t ∈ s.moveTurns m, t.2.isOwn = true := by
  intro t ht
  cases m with
  | tick => simp [moveTurns] at ht
  | drainOnTick ticker => exact (s.stepTurns_isOwn ticker.drain t ht).1
  | drain => exact (s.stepTurns_isOwn s.drain t ht).1
  | _ =>
    rw [List.mem_singleton.mp ht]
    rfl

/-- Every turn that is taken while time passes is one that a server takes by itself. -/
theorem runTurns_isOwn (s : Server) (fuel : Nat) (goal : Goal) :
    ∀ t ∈ runTurns fuel goal s, t.2.isOwn = true := by
  induction fuel generalizing s with
  | zero => intro t ht; simp [runTurns] at ht
  | succ fuel ih =>
    intro t ht
    unfold runTurns at ht
    split at ht
    · next m _ =>
      rcases List.mem_append.mp ht with ht | ht
      · exact s.moveTurns_isOwn m t ht
      · exact ih (s.move m) t ht
    · split at ht
      · simp at ht
      · split at ht
        · exact ih _ t ht
        · simp at ht

/-- Nothing is asked for while time passes. -/
theorem isUnasked_of_isOwn {turns : List (Instant × Turn)} (h : ∀ t ∈ turns, t.2.isOwn = true) :
    IsUnasked turns := by
  intro t ht
  have hown := h t ht
  cases hturn : t.2 <;> simp [hturn, Turn.isOwn, Turn.isRequest] at hown ⊢

/-- Nothing is cancelled either, so that a run is quiet in which no timer fires. -/
theorem isQuiet_of_isOwn {turns : List (Instant × Turn)} (h : ∀ t ∈ turns, t.2.isOwn = true)
    (hfire : ∀ t ∈ turns, ∀ timer, t.2 ≠ .fire timer) : IsQuiet turns := by
  intro t ht
  have hown := h t ht
  have hnone := hfire t ht
  cases hturn : t.2 <;> simp [hturn, Turn.isOwn, Turn.isQuiet, Turn.isRequest] at hown hnone ⊢

end Server

end Klaxon
