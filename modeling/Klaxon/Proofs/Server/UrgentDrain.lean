import Klaxon.Proofs.Server.Moves
import Klaxon.Proofs.Server.Trace

/-!
# The drain of the most urgent lane comes to an end

When an urgent message is made, the server empties the most urgent lane, batch by batch, until it
finds it empty. While the calls of a batch are open, other things happen: timers fire and may put
ids back into this lane, the ticker drains all lanes, messages are pruned, and the clock goes on.
The drain ends nevertheless (`exists_ends`). Each thing that happens is `Nearer` to the end in one
of four ways, and the earlier ones count for more:

* an id gets nearer to where nothing brings it on any more (`Engine.stepsLeft`);
* a call is answered, and no other is opened;
* the clock gets nearer to the time at which the open calls are answered, or what is to happen
  regularly until then is put off behind it;
* a drain turns to its next lane.

A server that is at the end stands where its drain is over, whatever number of steps it is given
beyond the ones that it needs (`Ends`).
-/

namespace Klaxon

namespace Engine

/-- A timer that fires is not there any more. -/
theorem timers_fire (e : Engine) (timer : Timer) :
    (e.fire timer).timers = e.timers.erase timer := by
  unfold fire requeue
  split
  · split <;> rfl
  · rfl

/-- A timer that fires takes nothing off its flight. -/
theorem flights_fire (e : Engine) (timer : Timer) : (e.fire timer).flights = e.flights := by
  unfold fire requeue
  split
  · split <;> rfl
  · rfl

end Engine

namespace Server

variable {c e₀ : Engine} {past : List Happening} {s s' : Server} {id : String} {ids : List String}

/-! ## How far the end is -/

/-- When all open calls are answered, or now if there are none. -/
def horizon (s : Server) : Int := (s.calls.map fun c => c.due.nanos).foldr max s.now.nanos

/-- How far an instant is from having passed the horizon. -/
def ahead (s : Server) (t : Instant) : Nat := (s.horizon + 1 - t.nanos).toNat

/-- How far the clock, the ticks and the prunings are from having passed the horizon. -/
def timeLeft (s : Server) : Nat :=
  s.ahead s.now + (s.ticker.map fun t => s.ahead t.next).getD 0 +
    (s.pruners.map fun p => s.ahead p.next).sum

/-- The lanes that are still to be emptied. -/
def lanesLeft (s : Server) : Nat :=
  (s.ticker.map fun t => t.drain.lanes.length).getD 0 + s.drain.lanes.length

/-- A server is nearer to the end of its drain than another. -/
inductive Nearer (ids : List String) (s' s : Server) : Prop where
  | step (h : s'.engine.stepsLeftOf ids < s.engine.stepsLeftOf ids)
  | answer (h : s'.engine.stepsLeftOf ids ≤ s.engine.stepsLeftOf ids)
      (hc : s'.calls.length < s.calls.length)
  | time (h : s'.engine.stepsLeftOf ids ≤ s.engine.stepsLeftOf ids)
      (hc : s'.calls = s.calls) (ht : s'.timeLeft < s.timeLeft)
  | lane (h : s'.engine.stepsLeftOf ids ≤ s.engine.stepsLeftOf ids)
      (hc : s'.calls = s.calls) (ht : s'.timeLeft = s.timeLeft) (hl : s'.lanesLeft < s.lanesLeft)

/-- The four ways together, the first one first. -/
def cost (ids : List String) (s : Server) : Nat × Nat × Nat × Nat :=
  (s.engine.stepsLeftOf ids, s.calls.length, s.timeLeft, s.lanesLeft)

/-- Nothing gets nearer for ever. -/
theorem nearer_wellFounded (ids : List String) : WellFounded (Nearer ids) := by
  have hlex : WellFounded (Prod.Lex (· < ·) (Prod.Lex (· < ·) (Prod.Lex (· < ·) (· < ·))) :
      Nat × Nat × Nat × Nat → Nat × Nat × Nat × Nat → Prop) :=
    WellFounded.prod_lex Nat.lt_wfRel.wf
      (WellFounded.prod_lex Nat.lt_wfRel.wf (WellFounded.prod_lex Nat.lt_wfRel.wf Nat.lt_wfRel.wf))
  refine Subrelation.wf (fun {s' s} hnearer => ?_) (InvImage.wf (cost ids) hlex)
  -- Where the steps that are left are the same, the next of the four counts.
  have hsteps {q r : Nat × Nat × Nat}
      (h : s'.engine.stepsLeftOf ids ≤ s.engine.stepsLeftOf ids)
      (hrest : Prod.Lex (· < ·) (Prod.Lex (· < ·) (· < ·)) q r) :
      Prod.Lex (· < ·) (Prod.Lex (· < ·) (Prod.Lex (· < ·) (· < ·)))
        (s'.engine.stepsLeftOf ids, q) (s.engine.stepsLeftOf ids, r) := by
    rcases Nat.lt_or_eq_of_le h with hlt | heq
    · exact .left _ _ hlt
    · rw [heq]
      exact .right _ hrest
  unfold InvImage cost
  cases hnearer with
  | step h => exact .left _ _ h
  | answer h hc => exact hsteps h (.left _ _ hc)
  | time h hc ht =>
    rw [hc]
    exact hsteps h (.right _ (.left _ _ ht))
  | lane h hc ht hl =>
    rw [hc, ht]
    exact hsteps h (.right _ (.right _ hl))

/-! ## The horizon -/

/-- A maximum is no less than what it starts from. -/
theorem le_foldr_max (xs : List Int) (start : Int) : start ≤ xs.foldr max start := by
  induction xs with
  | nil => exact Int.le_refl _
  | cons x xs ih => exact Int.le_trans ih (Int.le_max_right _ _)

/-- A maximum is no less than any of the numbers. -/
theorem le_foldr_max_of_mem {xs : List Int} {x : Int} (hx : x ∈ xs) (start : Int) :
    x ≤ xs.foldr max start := by
  induction xs with
  | nil => simp at hx
  | cons y ys ih =>
    rcases List.mem_cons.mp hx with rfl | hx
    · exact Int.le_max_left _ _
    · exact Int.le_trans (ih hx) (Int.le_max_right _ _)

/-- The horizon is not behind the clock. -/
theorem now_le_horizon (s : Server) : s.now.nanos ≤ s.horizon := le_foldr_max _ _

/-- No open call is answered behind the horizon. -/
theorem due_le_horizon {call : OpenCall} (h : call ∈ s.calls) : call.due.nanos ≤ s.horizon :=
  le_foldr_max_of_mem (List.mem_map_of_mem h) _

/-- A clock that does not pass an open call does not move the horizon on. -/
theorem horizon_moveTo_le {t : Instant} {call : OpenCall} (h : call ∈ s.calls)
    (ht : t ≤ call.due) : (s.moveTo t).horizon ≤ s.horizon := by
  have hdue := due_le_horizon h
  have hle : ∀ xs : List Int, (∀ x ∈ xs, x ≤ s.horizon) → xs.foldr max t.nanos ≤ s.horizon := by
    intro xs
    induction xs with
    | nil => exact fun _ => Int.le_trans ht hdue
    | cons x xs ih =>
      intro hxs
      obtain ⟨hx, hrest⟩ := List.forall_mem_cons.mp hxs
      exact Int.max_le.mpr ⟨hx, ih hrest⟩
  refine hle _ fun x hx => ?_
  obtain ⟨c, hc, rfl⟩ := List.mem_map.mp hx
  exact due_le_horizon hc

/-! ## What happens next -/

/-- A drain that takes a batch brings its ids nearer to their ends, or turns to its next lane and
leaves everything else as it is. -/
theorem stepDrain_nearer (h : c.Sound s.engine past) (hp : c.IsModest)
    (hknows : Engine.Knows ids s.engine) {d : Drain} {lane : Priority} {rest : List Priority}
    (hd : d.lanes = lane :: rest) :
    (s.stepDrain d).1.engine.stepsLeftOf ids < s.engine.stepsLeftOf ids ∨
      (s.stepDrain d).1.engine.stepsLeftOf ids ≤ s.engine.stepsLeftOf ids ∧
        (s.stepDrain d).1 = { s with engine := (s.engine.pull lane).1 } ∧
        (s.stepDrain d).2.lanes = rest := by
  have hpulled : c.Sound (s.engine.pull lane).1 (past ++ []) :=
    Engine.turn_sound h s.now (.pull lane)
  -- An empty batch only turns to the next lane; any other one brings its ids on.
  by_cases hbatch : (s.engine.pull lane).2 = []
  · right
    have hle := h.stepsLeftOf_turn_le hp ids s.now (t := .pull lane) rfl
    unfold stepDrain
    simp only [hd, hbatch, beginAll, List.isEmpty_nil, Bool.not_true, Bool.and_false,
      Bool.false_eq_true, if_false]
    exact ⟨hle, trivial, trivial⟩
  · left
    have hlt := h.stepsLeftOf_pull_lt hp hknows hbatch
    have hbegun := engine_beginAll_eq (s := { s with engine := (s.engine.pull lane).1 }) hpulled
      (h.nodup_pull lane) fun id hid => h.pulled_of_pull lane hid
    have hrest := hpulled.stepsLeftOf_run_le hp ids
      (isUnasked_of_isOwn fun t ht =>
        (beginAllTurns_isOwn { s with engine := (s.engine.pull lane).1 }
          (s.engine.pull lane).2 t ht).1)
    have hengine : (s.stepDrain d).1.engine = ({ s with
        engine := (s.engine.pull lane).1 }.beginAll (s.engine.pull lane).2).1.engine := by
      unfold stepDrain
      simp only [hd]
    rw [hengine, hbegun]
    exact Nat.lt_of_le_of_lt hrest hlt

/-- A timer that fires brings its id nearer to its end. -/
theorem fire_nearer (h : c.Sound s.engine past) (hp : c.IsModest)
    (hknows : Engine.Knows ids s.engine) {timer : Timer} (ht : timer ∈ s.engine.timers) :
    (s.engine.fire timer).stepsLeftOf ids < s.engine.stepsLeftOf ids := by
  have hturn : s.engine.turn s.now (.fire timer) = s.engine.fire timer := if_pos ht
  obtain ⟨v, hat, -⟩ := h.life timer.messageId
  obtain ⟨v', hat', -⟩ := (Engine.turn_sound h s.now (.fire timer)).life timer.messageId
  have hhandle : v.handle = some (.timer timer) := hat.handle_of_mem_timers ht
  have hne : v'.handle ≠ v.handle := by
    -- The timer is not there any more.
    intro heq
    have hafter := hat'.timers
    rw [heq, hhandle, hturn] at hafter
    have herase := Engine.timersOf_erase s.engine timer timer.messageId
    rw [if_pos rfl, hat.timers, hhandle] at herase
    have hnone : (s.engine.fire timer).timersOf timer.messageId = [] := by
      unfold Engine.timersOf at herase ⊢
      rw [Engine.timers_fire]
      simpa [Handle.timers] using herase
    rw [hnone] at hafter
    simp [Handle.timers] at hafter
  have hlt := h.stepsLeftOf_turn_lt hp hknows s.now (t := .fire timer) rfl hat hat' hne
  rw [hturn] at hlt
  exact hlt

/-- A tick that is due is put off. -/
theorem lt_tickAfter (s : Server) (due : Instant) : due < s.tickAfter due := by
  have hperiod := s.tickPeriod_pos
  unfold tickAfter
  rw [Instant.lt_def]
  split
  · next hlate =>
    rw [Instant.lt_def] at hlate
    simp only [Instant.nanos_add, tickTolerance, Time.millisecond] at hlate ⊢
    omega
  · simp only [Instant.nanos_add]
    omega

/-- What is due by now is ahead of the horizon, and less so when it is put off. -/
theorem ahead_lt {t t' : Instant} (ht : t ≤ s.now) (h : t < t') : s.ahead t' < s.ahead t := by
  have hnow := s.now_le_horizon
  rw [Instant.le_def] at ht
  rw [Instant.lt_def] at h
  unfold ahead
  omega

/-- A tick brings the time nearer at which the next one is behind the horizon. -/
theorem timeLeft_tick_lt {t : Ticker} (ht : s.ticker = some t) (hnext : t.next ≤ s.now) :
    (s.move (.tick t)).timeLeft < s.timeLeft := by
  have hlt : s.ahead (s.tickAfter t.next) < s.ahead t.next := ahead_lt hnext (s.lt_tickAfter _)
  have hbefore : (s.ticker.map fun t => s.ahead t.next).getD 0 = s.ahead t.next := by
    rw [ht]
    rfl
  have hafter : (s.move (.tick t)).timeLeft = s.ahead s.now + s.ahead (s.tickAfter t.next) +
      (s.pruners.map fun p => s.ahead p.next).sum := rfl
  rw [hafter]
  unfold timeLeft
  rw [hbefore]
  omega

/-- So does a pruning, for the next one. -/
theorem timeLeft_prune_lt {p : Pruner} (hp : p ∈ s.pruners) (hnext : p.next ≤ s.now) :
    (s.move (.prune p)).timeLeft < s.timeLeft := by
  have hlater : s.ahead (p.next.add prunePeriod) < s.ahead p.next := by
    apply ahead_lt hnext
    rw [Instant.lt_def, Instant.nanos_add]
    unfold prunePeriod Time.hour Time.second
    omega
  have hlt : ((s.pruners.map fun q =>
      if q = p then { p with next := p.next.add prunePeriod } else q).map
        fun q => s.ahead q.next).sum < (s.pruners.map fun q => s.ahead q.next).sum := by
    rw [List.map_map]
    refine List.sum_lt_sum _ _ (fun q _ => ?_) ⟨p, hp, ?_⟩
    · simp only [Function.comp]
      split
      · next heq =>
        rw [heq]
        exact Nat.le_of_lt hlater
      · exact Nat.le_refl _
    · simp only [Function.comp, if_true]
      exact hlater
  have hafter : (s.move (.prune p)).timeLeft = s.ahead s.now +
      (s.ticker.map fun t => s.ahead t.next).getD 0 + ((s.pruners.map fun q =>
        if q = p then { p with next := p.next.add prunePeriod } else q).map
          fun q => s.ahead q.next).sum := rfl
  rw [hafter]
  unfold timeLeft
  omega

/-- A drain that is ready has a lane to take its next batch from. -/
theorem exists_lane_of_isReady {d : Drain} {calls : List OpenCall} (h : d.isReady calls = true) :
    ∃ lane rest, d.lanes = lane :: rest := by
  unfold Drain.isReady at h
  rw [Bool.and_eq_true, Bool.not_eq_true', List.isEmpty_eq_false_iff_exists_mem] at h
  obtain ⟨⟨lane, hlane⟩, -⟩ := h
  exact List.exists_cons_of_ne_nil (List.ne_nil_of_mem hlane)

/-- What happens next brings the end nearer. -/
theorem nearer_move (h : c.Sound s.engine past) (hp : c.IsModest)
    (hknows : Engine.Knows ids s.engine) {m : Move} (hm : s.nextMove? = some m) :
    Nearer ids (s.move m) s := by
  have hdue := isDue_of_nextMove? hm
  have hsteps : (s.move m).engine.stepsLeftOf ids ≤ s.engine.stepsLeftOf ids := by
    rw [engine_move h hm]
    exact h.stepsLeftOf_run_le hp ids (isUnasked_of_isOwn (s.moveTurns_isOwn m))
  cases m with
  | fire timer => exact .step (fire_nearer h hp hknows hdue)
  | answer call =>
    -- The call that is answered is not open any more, and an answer opens no other.
    refine .answer hsteps ?_
    have hmem : call ∈ s.calls := hdue
    exact List.length_filter_lt_length_iff_exists.mpr ⟨call, hmem, by simp⟩
  | tick t => exact .time hsteps rfl (timeLeft_tick_lt hdue.1 hdue.2)
  | drainOnTick t =>
    obtain ⟨hticker, hready⟩ := hdue
    obtain ⟨first, rest, hlanes⟩ := exists_lane_of_isReady hready
    rcases stepDrain_nearer h hp hknows hlanes with hlt | ⟨hle, hserver, hrest⟩
    · exact .step hlt
    · refine .lane hle ?_ ?_ ?_
      · -- An empty batch opens no call.
        simp only [move, hserver]
      · simp only [move, hserver, timeLeft, ahead, horizon, hticker, Option.map_some]
      · simp only [move, hserver, lanesLeft, hticker, Option.map_some, Option.getD_some, hrest,
          hlanes, List.length_cons]
        omega
  | prune p => exact .time hsteps rfl (timeLeft_prune_lt hdue.1 hdue.2)
  | drain =>
    have hready : s.drain.isReady s.calls = true := hdue
    obtain ⟨first, rest, hlanes⟩ := exists_lane_of_isReady hready
    rcases stepDrain_nearer h hp hknows hlanes with hlt | ⟨hle, hserver, hrest⟩
    · exact .step hlt
    · refine .lane hle ?_ ?_ ?_
      · simp only [move, hserver]
      · simp only [move, hserver, timeLeft, ahead, horizon]
      · simp only [move, hserver, lanesLeft, hrest, hlanes, List.length_cons]
        omega

/-! ## When nothing happens -/

/-- A tick is not put forward. -/
theorem due_le_tickFrom (s : Server) (due now : Instant) : due ≤ s.tickFrom due now := by
  have hpos := s.tickPeriod_pos
  unfold tickFrom
  split
  · exact Int.le_refl _
  · next hlate =>
    rw [Instant.le_def] at hlate
    -- The periods that were missed are counted, so their number is not negative.
    have hdiv : 0 ≤ (now.since due + s.tickPeriod - 1) / s.tickPeriod := by
      apply Int.ediv_nonneg _ (Int.le_of_lt hpos)
      unfold Instant.since
      omega
    have hahead := Int.mul_nonneg hdiv (Int.le_of_lt hpos)
    rw [Instant.le_def, Instant.nanos_add]
    omega

/-- While a drain is neither done nor ready, it waits for an open call. -/
theorem exists_call_of_isWaiting {d : Drain} {calls : List OpenCall}
    (hdone : d.isDone calls = false) (hready : d.isReady calls = false) :
    ∃ call, call ∈ calls := by
  have hwaiting : d.isWaiting calls = true := by
    unfold Drain.isDone at hdone
    unfold Drain.isReady at hready
    cases hempty : d.lanes.isEmpty <;> simp_all
  obtain ⟨call, hcall, -⟩ := List.any_eq_true.mp hwaiting
  exact ⟨call, hcall⟩

/-- A clock that goes on while a call is open, and not beyond it, brings its answer nearer. -/
theorem timeLeft_moveTo_lt {call : OpenCall} (hcall : call ∈ s.calls) {t : Instant}
    (hlate : s.now < t) (ht : t ≤ call.due) : (s.moveTo t).timeLeft < s.timeLeft := by
  have hhorizon := horizon_moveTo_le hcall ht
  have hnow := s.now_le_horizon
  rw [Instant.lt_def] at hlate
  -- What is not put forward is no farther from the horizon.
  have hahead : ∀ {x y : Instant}, x ≤ y → (s.moveTo t).ahead y ≤ s.ahead x := by
    intro x y hxy
    rw [Instant.le_def] at hxy
    unfold ahead
    omega
  have hclock : (s.moveTo t).ahead (s.moveTo t).now < s.ahead s.now := by
    have hmoved : (s.moveTo t).now = t := rfl
    unfold ahead
    rw [hmoved]
    omega
  have hticker : ((s.moveTo t).ticker.map fun k => (s.moveTo t).ahead k.next).getD 0 ≤
      (s.ticker.map fun k => s.ahead k.next).getD 0 := by
    have hmoved : (s.moveTo t).ticker = s.ticker.map fun k =>
      if s.running && k.drain.isDone s.calls then { k with next := s.tickFrom k.next t } else k :=
        rfl
    rw [hmoved]
    cases s.ticker with
    | none => exact Nat.le_refl _
    | some k =>
      simp only [Option.map_some, Option.getD_some]
      split
      · exact hahead (s.due_le_tickFrom k.next t)
      · exact hahead (Int.le_refl _)
  have hpruners : ((s.moveTo t).pruners.map fun p => (s.moveTo t).ahead p.next).sum ≤
      (s.pruners.map fun p => s.ahead p.next).sum :=
    List.sum_le_sum fun p _ => hahead (Int.le_refl _)
  unfold timeLeft
  omega

/-- When nothing happens before a drain is over, the clock goes on to where something does, and this
brings the end nearer. -/
theorem nearer_moveTo (ids : List String) (hidle : s.IsIdle)
    (hdone : s.drain.isDone s.calls = false) :
    ∃ t, s.nextTime? = some t ∧ Nearer ids (s.moveTo t) s := by
  obtain ⟨call, hcall⟩ := exists_call_of_isWaiting hdone hidle.drain
  obtain ⟨t, ht, hle⟩ := exists_nextTime? hcall
  have hlt := hidle.lt_nextTime? ht
  exact ⟨t, ht, .time (Nat.le_refl _) rfl (timeLeft_moveTo_lt hcall hlt hle)⟩

/-! ## The end -/

/-- From some number of steps on, a server has taken turns and stands where its drain is over. -/
structure Ends (s s' : Server) (turns : List (Instant × Turn)) : Prop where
  reached : ∃ enough, ∀ fuel ≥ enough,
    Server.run fuel .drain s = s' ∧ runTurns fuel .drain s = turns
  done : s'.drain.isDone s'.calls = true

/-- One step more leads to the end, where the rest does. -/
theorem Ends.of_next {next : Server} {turns first : List (Instant × Turn)}
    (h : next.Ends s' turns)
    (hrun : ∀ fuel, Server.run (fuel + 1) .drain s = Server.run fuel .drain next)
    (hturns : ∀ fuel, runTurns (fuel + 1) .drain s = first ++ runTurns fuel .drain next) :
    s.Ends s' (first ++ turns) := by
  obtain ⟨⟨enough, hreached⟩, hdone⟩ := h
  refine ⟨⟨enough + 1, fun fuel hfuel => ?_⟩, hdone⟩
  obtain ⟨k, rfl⟩ := Nat.exists_eq_add_of_le' (Nat.le_trans (Nat.le_add_left 1 enough) hfuel)
  obtain ⟨hleft, hrest⟩ := hreached k (Nat.le_of_succ_le_succ hfuel)
  rw [hrun, hturns, hleft, hrest]
  exact ⟨rfl, rfl⟩

/-- A drain comes to an end, whatever else happens meanwhile. -/
theorem exists_ends (h : c.Sound s.engine past) (hp : c.IsModest)
    (hknows : Engine.Knows ids s.engine) : ∃ s' turns, s.Ends s' turns := by
  induction s using (nearer_wellFounded ids).induction generalizing past with
  | _ s ih =>
    cases hm : s.nextMove? with
    | some m =>
      have hmove := engine_move h hm
      have hsound : c.Sound (s.move m).engine (past ++ s.engine.history (s.moveTurns m)) := by
        rw [hmove]
        exact h.run _
      have hknows' : Engine.Knows ids (s.move m).engine := by
        rw [hmove]
        exact hknows.run h (isUnasked_of_isOwn (s.moveTurns_isOwn m))
      obtain ⟨s', turns, hends⟩ := ih (s.move m) (nearer_move h hp hknows hm) hsound hknows'
      refine ⟨s', s.moveTurns m ++ turns, hends.of_next (fun fuel => ?_) fun fuel => ?_⟩
      · rw [Server.run, hm]
      · rw [runTurns, hm]
    -- Nothing happens now: the drain is over, or the clock goes on to where something does.
    | none =>
      cases hover : s.drain.isDone s.calls with
      | true =>
        have hreached : s.reached .drain = true := hover
        refine ⟨s, [], ⟨0, fun fuel _ => ?_⟩, hover⟩
        cases fuel with
        | zero => exact ⟨rfl, rfl⟩
        | succ k =>
          simp only [Server.run, runTurns, hm, hreached, if_true]
          exact ⟨trivial, trivial⟩
      | false =>
        have hreached : s.reached .drain = false := hover
        obtain ⟨t, ht, hnearer⟩ := nearer_moveTo ids (isIdle_of_nextMove? hm) hover
        have hstop : s.nextStop? .drain = some t := ht
        obtain ⟨s', turns, hends⟩ := ih (s.moveTo t) hnearer h hknows
        refine ⟨s', [] ++ turns, hends.of_next (fun fuel => ?_) fun fuel => ?_⟩
        · simp only [Server.run, hm, hreached, hstop, Bool.false_eq_true, if_false]
        · simp only [runTurns, hm, hreached, hstop, Bool.false_eq_true, if_false, List.nil_append]

/-- The engine at the end is what the turns made of it. -/
theorem Ends.engine {turns : List (Instant × Turn)} (h : s.Ends s' turns)
    (hsound : c.Sound s.engine past) : s'.engine = s.engine.run turns := by
  obtain ⟨⟨enough, hreached⟩, -⟩ := h
  obtain ⟨rfl, rfl⟩ := hreached enough (Nat.le_refl _)
  exact engine_run hsound enough .drain

end Server

end Klaxon
