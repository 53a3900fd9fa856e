import Klaxon.Proofs.Server.Moves
import Klaxon.Proofs.Server.Waiting

/-!
# The drains of a server

A server has two drains at most, that of its ticker and the one that was asked for. They are two of
the drains of a `Ticking` (`Shows`), and what a server does is a run of it: as time passes, timers,
answers, prunings and the drains of its ticker follow each other with the drain that was asked for
(`Shows.run`), and so it is when the server is asked for a tick (`Shows.tick`).
-/

namespace Klaxon

namespace Server

variable {s : Server}

/-- To take an id up leaves the ticker as it is. -/
theorem ticker_begin (s : Server) (id : String) : (s.begin id).1.ticker = s.ticker := by
  have hhanded (s : Server) (call : Call) : (s.handOver call).1.ticker = s.ticker := by
    unfold handOver
    split <;> rfl
  unfold Server.begin
  generalize s.engine.takeUp id s.now = taken
  obtain ⟨engine, call⟩ := taken
  cases call with
  | none => rfl
  | some call =>
    simp only
    split <;> exact hhanded { s with engine } call

/-- A batch leaves the ticker to its taker. -/
theorem ticker_stepDrain (s : Server) (d : Drain) : (s.stepDrain d).1.ticker = s.ticker := by
  have hall (ids : List String) (s : Server) : (s.beginAll ids).1.ticker = s.ticker := by
    induction ids generalizing s with
    | nil => rfl
    | cons id rest ih => exact (ih _).trans (s.ticker_begin id)
  unfold stepDrain
  split
  · rfl
  · exact hall _ _

end Server

namespace Ticking

variable {c : Engine} {t : Ticking} {s s' : Server} {own : Nat} {asked : Option Nat}

/-! ## The drains of a server -/

/-- A drain has a number among all drains. -/
def Watches (t : Ticking) (n : Nat) (d : Drain) : Prop := t.drains[n]?.map Watched.drain = some d

/-- A drain that has a number is one of all drains. -/
theorem Watches.lt {n : Nat} {d : Drain} (h : t.Watches n d) : n < t.drains.length := by
  obtain ⟨w, hw, -⟩ := Option.map_eq_some_iff.mp h
  exact (List.getElem?_eq_some_iff.mp hw).1

/-- Notes of what is over leave the drains as they are. -/
theorem Watches.settle {n : Nat} {d : Drain} (h : t.Watches n d) : t.settle.Watches n d := by
  have hsame : (t.settle.drains[n]?).map Watched.drain = t.drains[n]?.map Watched.drain := by
    unfold Ticking.settle
    rw [List.getElem?_map, Option.map_map]
    rfl
  exact hsame.trans h

/-- A drain goes on only by taking its own batches. -/
theorem Watches.step {n : Nat} {d : Drain} (h : t.Watches n d) {a : Act} (ha : a ≠ .batch n) :
    (t.step a).Watches n d := by
  have hstart (w : Watched) : (t.drains ++ [w])[n]?.map Watched.drain = some d := by
    rw [List.getElem?_append_left h.lt]
    exact h
  refine Watches.settle ?_
  cases a with
  | tick => exact hstart _
  | urge => exact hstart _
  | answer m =>
    rcases t.act_answer m with hnone | ⟨call, -, heq⟩
    · rw [hnone]
      exact h
    · rw [heq]
      exact h
  | batch m =>
    rcases t.act_batch m with ⟨hnone, -⟩ | ⟨w, hm, hready⟩
    · rw [hnone]
      exact h
    · rw [act_batch_of_isReady hm hready]
      -- A batch of another drain changes that drain only.
      have hne : m ≠ n := fun he => ha (by rw [he])
      show (t.drains.set m _)[n]?.map Watched.drain = some d
      rw [List.getElem?_set_ne hne]
      exact h
  | _ => exact h

/-- A drain that can go on takes its next batch from the server. -/
theorem Watches.batch {n : Nat} {d : Drain} (h : t.Watches n d)
    (hready : d.isReady t.server.calls = true) :
    (t.step (.batch n)).Watches n (t.server.stepDrain d).2 ∧
      (t.step (.batch n)).server = (t.server.stepDrain d).1 := by
  obtain ⟨w, hn, rfl⟩ := Option.map_eq_some_iff.mp h
  have hact := act_batch_of_isReady hn hready
  have hlt := (List.getElem?_eq_some_iff.mp hn).1
  constructor
  · refine Watches.settle ?_
    unfold Watches
    rw [hact, List.getElem?_set_self hlt]
    rfl
  · exact congrArg Ticking.server hact

/-- A drain that starts is the last one of all. -/
theorem watches_start (t : Ticking) (d : Drain) :
    Watches { t with drains := t.drains ++ [.start d] } t.drains.length d := by
  unfold Watches
  rw [List.getElem?_concat_length]
  rfl

/-- A tick that starts is a drain of every lane. -/
theorem watches_tick (t : Ticking) : (t.step .tick).Watches t.drains.length .everyLane :=
  (t.watches_start .everyLane).settle

/-- A drain of the most urgent lane that starts is the last one of all. -/
theorem watches_urge (t : Ticking) : (t.step .urge).Watches t.drains.length .urgent :=
  (t.watches_start .urgent).settle

/-- The drain of the ticker of a server and the one that was asked for are two of all drains, as far
as they have lanes left. -/
structure Shows (t : Ticking) (s : Server) (own : Nat) (asked : Option Nat) : Prop where
  server : t.server = s
  ticker : ∀ ticker, s.ticker = some ticker →
    ticker.drain.lanes = [] ∨ t.Watches own ticker.drain
  idle : asked = none → s.drain.lanes = []
  drain : ∀ n, asked = some n → t.Watches n s.drain ∧ n ≠ own

/-- A server whose drains stay the same is shown behind anything but a batch. -/
theorem Shows.step (h : t.Shows s own asked) {a : Act} (ha : ∀ n, a ≠ .batch n)
    (hserver : (t.step a).server = s') (hdrain : s'.drain = s.drain)
    (hticker : s'.ticker.map Ticker.drain = s.ticker.map Ticker.drain) :
    (t.step a).Shows s' own asked := by
  refine ⟨hserver, fun ticker' hticker' => ?_, fun hnone => ?_, fun n hn => ?_⟩
  · rw [hticker', Option.map_some] at hticker
    -- The ticker may have another time, but its drain is the same.
    obtain ⟨ticker, hsome, hsame⟩ := Option.map_eq_some_iff.mp hticker.symm
    rw [← hsame]
    exact (h.ticker ticker hsome).imp_right fun hw => hw.step (ha own)
  · rw [hdrain]
    exact h.idle hnone
  · obtain ⟨hw, hne⟩ := h.drain n hn
    rw [hdrain]
    exact ⟨hw.step (ha n), hne⟩

/-- Anything may change beside the engine and the open calls. -/
theorem server_alter (hengine : s'.engine = t.server.engine) (hcalls : s'.calls = t.server.calls)
    (hmade : s'.callsMade = t.server.callsMade) : (t.step (.alter s')).server = s' := by
  show { s' with
    engine := t.server.engine, calls := t.server.calls, callsMade := t.server.callsMade } = s'
  rw [← hengine, ← hcalls, ← hmade]

/-- A server may put its drains in their places. -/
theorem shows_alter (hengine : s'.engine = t.server.engine) (hcalls : s'.calls = t.server.calls)
    (hmade : s'.callsMade = t.server.callsMade)
    (hticker : ∀ ticker, s'.ticker = some ticker →
      ticker.drain.lanes = [] ∨ t.Watches own ticker.drain)
    (hidle : asked = none → s'.drain.lanes = [])
    (hdrain : ∀ n, asked = some n → t.Watches n s'.drain ∧ n ≠ own) :
    (t.step (.alter s')).Shows s' own asked := by
  refine ⟨server_alter hengine hcalls hmade, fun ticker hsome => ?_, hidle, fun n hn => ?_⟩
  · exact (hticker ticker hsome).imp_right fun hw => hw.step (by simp)
  · exact ⟨(hdrain n hn).1.step (by simp), (hdrain n hn).2⟩

/-- A server takes a turn of its engine. -/
theorem Shows.turn (h : t.Shows s own asked) (turn : Turn) :
    (t.step (.turn turn)).Shows { s with engine := s.engine.turn s.now turn } own asked := by
  refine h.step (by simp) ?_ rfl rfl
  rw [← h.server]
  rfl

/-- An answer comes to a server. -/
theorem Shows.answer (h : t.Shows s own asked) {n : Nat} {call : OpenCall}
    (hcall : s.calls[n]? = some call) :
    (t.step (.answer n)).Shows (s.move (.answer call)) own asked := by
  refine h.step (by simp) ?_ rfl rfl
  obtain rfl := h.server
  show (t.act (.answer n)).server = _
  unfold act
  simp only [hcall]

/-- The clock moves. -/
theorem Shows.moveTo (h : t.Shows s own asked) (now : Instant) :
    (t.step (.alter (s.moveTo now))).Shows (s.moveTo now) own asked := by
  obtain rfl := h.server
  refine h.step (by simp) (server_alter rfl rfl rfl) rfl ?_
  unfold Server.moveTo
  rw [Option.map_map]
  refine congrArg (fun f => t.server.ticker.map f) (funext fun ticker => ?_)
  rw [Function.comp_apply]
  split <;> rfl

/-- Finished messages are pruned. -/
theorem Shows.prune (h : t.Shows s own asked) (pruner : Pruner) :
    ∃ acts, (t.run acts).Shows (s.move (.prune pruner)) own asked := by
  obtain rfl := h.server
  have hturned := h.turn (.prune (t.server.now.sub (pruner.retentionSecs.toNat * Time.second)))
  exact ⟨[.turn _, .alter (t.server.move (.prune pruner))],
    hturned.step (by simp) (server_alter rfl rfl rfl) rfl rfl⟩

/-- The ticker of a server starts a drain. -/
theorem Shows.startTicker (h : t.Shows s own asked) (ticker : Ticker) :
    ∃ acts, (t.run acts).Shows (s.move (.tick ticker)) t.drains.length asked := by
  obtain ⟨rfl, hown, hidle, hasked⟩ := h
  -- The new drain comes with the act, and the time of the next tick is changed beside it.
  refine ⟨[.tick, .alter (t.server.move (.tick ticker))], ?_⟩
  refine shows_alter (t := t.step .tick) rfl rfl rfl (fun ticker' hticker' => ?_) hidle
    fun n hn => ?_
  · obtain rfl := Option.some.inj hticker'
    exact .inr t.watches_tick
  · obtain ⟨hw, -⟩ := hasked n hn
    exact ⟨hw.step (by simp), Nat.ne_of_lt hw.lt⟩

/-- The drain of the ticker takes its next batch. -/
theorem Shows.drainOnTick (h : t.Shows s own asked) {ticker : Ticker}
    (hticker : s.ticker = some ticker) (hready : ticker.drain.isReady s.calls = true) :
    ∃ acts, (t.run acts).Shows (s.move (.drainOnTick ticker)) own asked := by
  obtain ⟨rfl, hown, hidle, hasked⟩ := h
  have hw : t.Watches own ticker.drain :=
    (hown ticker hticker).resolve_left (isReady_iff.mp hready).1
  obtain ⟨hbatch, hserver⟩ := hw.batch hready
  have hdrain : (t.server.move (.drainOnTick ticker)).drain = t.server.drain :=
    t.server.drain_stepDrain ticker.drain
  -- The batch is an act of the drain; that the ticker keeps the drain is a change beside it.
  refine ⟨[.batch own, .alter (t.server.move (.drainOnTick ticker))], ?_⟩
  refine shows_alter (t := t.step (.batch own)) ?_ ?_ ?_ (fun ticker' hticker' => ?_)
    (fun hnone => ?_) fun n hn => ?_
  · rw [hserver]
    rfl
  · rw [hserver]
    rfl
  · rw [hserver]
    rfl
  · obtain rfl := Option.some.inj hticker'
    exact .inr hbatch
  · rw [hdrain]
    exact hidle hnone
  · obtain ⟨hwn, hne⟩ := hasked n hn
    have hother : Act.batch own ≠ .batch n := fun he => hne (Act.batch.inj he).symm
    rw [hdrain]
    exact ⟨hwn.step hother, hne⟩

/-- The drain that was asked for takes its next batch. -/
theorem Shows.drainOnce (h : t.Shows s own asked) (hready : s.drain.isReady s.calls = true) :
    ∃ acts, (t.run acts).Shows (s.move .drain) own asked := by
  obtain ⟨rfl, hown, hidle, hasked⟩ := h
  -- A drain that is ready has lanes, so it is not the idle one.
  obtain ⟨n, rfl⟩ : ∃ n, asked = some n := by
    cases asked with
    | none => exact absurd (hidle rfl) (isReady_iff.mp hready).1
    | some n => exact ⟨n, rfl⟩
  obtain ⟨hw, hne⟩ := hasked n rfl
  obtain ⟨hbatch, hserver⟩ := hw.batch hready
  have hsame : (t.server.move .drain).ticker = t.server.ticker :=
    t.server.ticker_stepDrain t.server.drain
  refine ⟨[.batch n, .alter (t.server.move .drain)], ?_⟩
  refine shows_alter (t := t.step (.batch n)) ?_ ?_ ?_ (fun ticker hticker => ?_)
    (fun hnone => ?_) fun m hm => ?_
  · rw [hserver]
    rfl
  · rw [hserver]
    rfl
  · rw [hserver]
    rfl
  · rw [hsame] at hticker
    have hother : Act.batch n ≠ .batch own := fun he => hne (Act.batch.inj he)
    exact (hown ticker hticker).imp_right fun hwo => hwo.step hother
  · simp at hnone
  · obtain rfl := Option.some.inj hm
    exact ⟨hbatch, hne⟩

/-- Whatever a server does next is a run. -/
theorem Shows.move (h : t.Shows s own asked) {m : Move} (hm : s.nextMove? = some m) :
    ∃ acts own', (t.run acts).Shows (s.move m) own' asked := by
  have hdue := Server.isDue_of_nextMove? hm
  cases m with
  | fire timer =>
    have hturned := h.turn (.fire timer)
    -- What is due is there, so the turn does what the timer does.
    have hfire : s.engine.turn s.now (.fire timer) = s.engine.fire timer := if_pos hdue
    rw [hfire] at hturned
    exact ⟨[_], own, hturned⟩
  | answer call =>
    obtain ⟨n, hn⟩ := List.mem_iff_getElem?.mp hdue
    exact ⟨[_], own, h.answer hn⟩
  | tick ticker =>
    obtain ⟨acts, hacts⟩ := h.startTicker ticker
    exact ⟨acts, _, hacts⟩
  | drainOnTick ticker =>
    obtain ⟨acts, hacts⟩ := h.drainOnTick hdue.1 hdue.2
    exact ⟨acts, own, hacts⟩
  | prune p =>
    obtain ⟨acts, hacts⟩ := h.prune p
    exact ⟨acts, own, hacts⟩
  | drain =>
    obtain ⟨acts, hacts⟩ := h.drainOnce hdue
    exact ⟨acts, own, hacts⟩

/-- All that a server does as time passes is a run. -/
theorem Shows.run (h : t.Shows s own asked) (fuel : Nat) (goal : Server.Goal) :
    ∃ acts own', (t.run acts).Shows (Server.run fuel goal s) own' asked := by
  refine Server.run_induction
    (P := fun s => ∃ acts own', (t.run acts).Shows s own' asked) ?_ ?_ fuel goal ⟨[], own, h⟩
  · rintro s m ⟨acts, own', hs⟩ hm
    -- The runs for single moves are put together.
    obtain ⟨more, own'', hmore⟩ := hs.move hm
    refine ⟨acts ++ more, own'', ?_⟩
    rw [run_append]
    exact hmore
  · rintro s now ⟨acts, own', hs⟩
    refine ⟨acts ++ [.alter (s.moveTo now)], own', ?_⟩
    rw [run_append]
    exact hs.moveTo now

/-- A server that is asked for a drain goes on with it, as a drain that starts now. -/
theorem Shows.drainBy (h : t.Shows s own asked) {a : Act} {d : Drain} (ha : ∀ n, a ≠ .batch n)
    (hserver : (t.step a).server = t.server) (hstart : (t.step a).Watches t.drains.length d) :
    ∃ acts own', (t.run (a :: acts)).Shows (s.drainBy d) own' (some t.drains.length) := by
  obtain ⟨rfl, hown, -, -⟩ := h
  -- The drain of the ticker has a number below that of the new one, or no lane left.
  obtain ⟨own', hne, hown'⟩ : ∃ own', t.drains.length ≠ own' ∧ ∀ ticker,
      t.server.ticker = some ticker → ticker.drain.lanes = [] ∨ t.Watches own' ticker.drain := by
    by_cases hlt : own < t.drains.length
    · exact ⟨own, Nat.ne_of_gt hlt, hown⟩
    · refine ⟨t.drains.length + 1, Nat.ne_of_lt (Nat.lt_succ_self _), fun ticker hticker => ?_⟩
      exact .inl ((hown ticker hticker).resolve_right fun hw => hlt hw.lt)
  have hasked : ((t.step a).step (.alter { t.server with drain := d })).Shows
      { t.server with drain := d } own' (some t.drains.length) := by
    refine shows_alter ?_ ?_ ?_ (fun ticker hticker => ?_) (fun hnone => by simp at hnone)
      fun n hn => ?_
    · rw [hserver]
    · rw [hserver]
    · rw [hserver]
    · exact (hown' ticker hticker).imp_right fun hw => hw.step (ha own')
    · obtain rfl := Option.some.inj hn
      exact ⟨hstart, hne⟩
  obtain ⟨acts, own'', hacts⟩ := hasked.run Server.patience Server.Goal.drain
  exact ⟨_ :: acts, own'', hacts⟩

/-- A server that is asked for a tick goes on with it, as a tick that starts now. -/
theorem Shows.tick (h : t.Shows s own asked) :
    ∃ acts own', (t.run (.tick :: acts)).Shows s.tick.1 own' (some t.drains.length) :=
  h.drainBy (by simp) rfl t.watches_tick

/-- A server that empties its most urgent lane does so by a drain that starts now. -/
theorem Shows.urge (h : t.Shows s own asked) :
    ∃ acts own', (t.run (.urge :: acts)).Shows (s.drainBy .urgent) own' (some t.drains.length) :=
  h.drainBy (by simp) rfl t.watches_urge

end Ticking

end Klaxon
