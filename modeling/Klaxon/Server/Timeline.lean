import Klaxon.Server.State

/-!
# The passing of time

Time passes from event to event. `Server.nextMove?` picks what happens now, and `Server.move` lets
it happen: a timer ends, an answer comes, the ticker starts a drain, a drain takes its next batch,
or finished messages are pruned. When nothing happens any more, time moves on to the next instant at
which something does, up to the end that is asked for.

At one instant timers end first, in the order of their due times and then of their making, then
answers come; the drain of the ticker goes on before the one that was asked for.
-/

namespace Klaxon

/-- The earliest of several items, the first one of those that are equally early. -/
def earliest? {α : Type} (time : α → Instant) : List α → Option α
  | [] => none
  | a :: rest =>
    match earliest? time rest with
    | none => some a
    | some b => if time b < time a then some b else some a

/-- The earliest item is one of the items, and none is earlier. -/
theorem mem_and_le_of_earliest?_eq_some {α : Type} {time : α → Instant} :
    ∀ {items : List α} {a : α}, earliest? time items = some a →
      a ∈ items ∧ ∀ b ∈ items, time a ≤ time b
  | [], _, h => by simp [earliest?] at h
  | c :: rest, a, h => by
    simp only [earliest?] at h
    split at h
    · next hrest =>
      -- Among items one is the earliest, so that there are none behind the first one here.
      have hnil : rest = [] := by
        cases rest with
        | nil => rfl
        | cons d ds =>
          simp only [earliest?] at hrest
          split at hrest
          · simp at hrest
          · split at hrest <;> simp at hrest
      simp only [Option.some.injEq] at h
      subst h hnil
      simp [Instant.le_def]
    · next b hrest =>
      -- The first item is held against the earliest of those behind it.
      obtain ⟨hmem, hle⟩ := mem_and_le_of_earliest?_eq_some hrest
      split at h
      · next hlt =>
        simp only [Option.some.injEq] at h
        subst h
        refine ⟨List.mem_cons_of_mem _ hmem, fun d hd => ?_⟩
        rcases List.mem_cons.mp hd with rfl | hd
        · rw [Instant.lt_def] at hlt
          rw [Instant.le_def]
          omega
        · exact hle d hd
      · next hlt =>
        simp only [Option.some.injEq] at h
        subst h
        refine ⟨List.mem_cons_self, fun d hd => ?_⟩
        rcases List.mem_cons.mp hd with rfl | hd
        · simp [Instant.le_def]
        · have hb := hle d hd
          rw [Instant.lt_def] at hlt
          rw [Instant.le_def] at hb ⊢
          omega

/-- Something that happens to a server. -/
inductive Move where
  | fire (timer : Timer)
  | answer (call : OpenCall)
  /-- The ticker starts a drain. -/
  | tick (ticker : Ticker)
  /-- The drain of the ticker takes a batch. -/
  | drainOnTick (ticker : Ticker)
  | prune (pruner : Pruner)
  /-- The drain that was asked for takes a batch. -/
  | drain

namespace Server

/-- The earliest item that is due. -/
def dueNow? {α : Type} (s : Server) (time : α → Instant) (items : List α) : Option α :=
  match earliest? time items with
  | some a => if time a ≤ s.now then some a else none
  | none => none

/-- What the ticker does now. -/
def tickerMove? (s : Server) : Option Move :=
  match s.ticker with
  | none => none
  | some t =>
    -- A stopped server finishes the drain of its last tick.
    if t.drain.isReady s.calls then some (.drainOnTick t)
    else if s.running && t.drain.isDone s.calls && decide (t.next ≤ s.now) then some (.tick t)
    else none

/-- What happens now, if anything does. -/
def nextMove? (s : Server) : Option Move :=
  -- A timer puts its id into a lane, so that a drain of this instant still finds it there.
  match s.dueNow? Timer.due s.engine.timers with
  | some t => some (.fire t)
  | none =>
    match s.dueNow? OpenCall.due s.calls with
    | some c => some (.answer c)
    | none =>
      match s.tickerMove? with
      | some m => some m
      | none =>
        match s.dueNow? Pruner.next s.pruners with
        | some p => some (.prune p)
        | none => if s.drain.isReady s.calls then some .drain else none

/-- The nanoseconds between two ticks, at least a millisecond. -/
def tickPeriod (s : Server) : Int :=
  max 1 (s.engine.policy.tickIntervalMs.toNat : Int) * Time.millisecond

/-- Ticks are apart. -/
theorem tickPeriod_pos (s : Server) : 0 < s.tickPeriod := by
  unfold tickPeriod Time.millisecond
  omega

/-- How late a tick may be without putting off those behind it. -/
def tickTolerance : Int := 5 * Time.millisecond

/-- When the tick after one is due: a period after it was due, or a period from now if it is
late. -/
def tickAfter (s : Server) (due : Instant) : Instant :=
  if due.add tickTolerance < s.now then s.now.add s.tickPeriod else due.add s.tickPeriod

/-- The nanoseconds between two prunings. -/
def prunePeriod : Int := Time.hour

/-- Forgets the messages that were over for longer than a retention; gives their number. -/
def pruneExpired (s : Server) (retentionSecs : UInt64) : Server × Nat :=
  let (engine, count) := s.engine.prune (s.now.sub (retentionSecs.toNat * Time.second))
  ({ s with engine }, count)

/-- Lets something happen. -/
def move (s : Server) : Move → Server
  | .fire timer => { s with engine := s.engine.fire timer }
  | .answer call =>
    { s with
      calls := s.calls.filter fun c => c.number != call.number
      engine := s.engine.complete call.messageId call.report s.now }
  -- The time of the next tick is fixed now, before the drain can make it late.
  | .tick t => { s with ticker := some ⟨s.tickAfter t.next, .everyLane⟩ }
  | .drainOnTick t =>
    let (s, drain) := s.stepDrain t.drain
    { s with ticker := some { t with drain } }
  | .prune p =>
    let (s, _) := s.pruneExpired p.retentionSecs
    { s with pruners := s.pruners.map fun q =>
        if q = p then { p with next := p.next.add prunePeriod } else q }
  | .drain =>
    let (s, drain) := s.stepDrain s.drain
    { s with drain }

/-- When the ticker starts its next drain. While all lanes are empty its drains do nothing and are
passed over. -/
def tickTime? (s : Server) : Option Instant :=
  match s.ticker with
  | none => none
  | some t =>
    if s.running && t.drain.isDone s.calls && 0 < s.engine.lanes.total then some t.next else none

/-- The next instant at which something happens. -/
def nextTime? (s : Server) : Option Instant :=
  earliest? id
    (s.engine.timers.map Timer.due ++ s.calls.map OpenCall.due ++ s.tickTime?.toList ++
      s.pruners.map Pruner.next)

/-- The first tick at an instant or after it, by way of ticks that did nothing. -/
def tickFrom (s : Server) (due now : Instant) : Instant :=
  if now ≤ due then due
  else due.add ((now.since due + s.tickPeriod - 1) / s.tickPeriod * s.tickPeriod)

/-- Moves the clock. -/
def moveTo (s : Server) (now : Instant) : Server :=
  -- Ticks at which all lanes were empty are passed over, so that the next one is not in the past.
  let ticker := s.ticker.map fun t =>
    if s.running && t.drain.isDone s.calls then { t with next := s.tickFrom t.next now } else t
  { s with now, ticker }

/-- What is waited for. -/
inductive Goal where
  | time (instant : Instant)
  /-- The drain that was asked for is over. -/
  | drain
  /-- The drain of the ticker is over. -/
  | ticker

/-- Whether a goal is reached once nothing happens any more. -/
def reached (s : Server) : Goal → Bool
  | .time instant => decide (instant ≤ s.now)
  | .drain => s.drain.isDone s.calls
  | .ticker =>
    match s.ticker with
    | none => true
    | some t => t.drain.isDone s.calls

/-- Where time goes next on the way to a goal. -/
def nextStop? (s : Server) : Goal → Option Instant
  | .time instant =>
    match s.nextTime? with
    | some t => some (if t < instant then t else instant)
    | none => some instant
  | _ => s.nextTime?

/-- Lets time pass until a goal is reached; `fuel` bounds the steps. -/
def run : Nat → Goal → Server → Server
  | 0, _, s => s
  | fuel + 1, goal, s =>
    match s.nextMove? with
    | some m => run fuel goal (s.move m)
    | none =>
      if s.reached goal then s
      else
        match s.nextStop? goal with
        | some t => run fuel goal (s.moveTo t)
        -- Nothing is to come, so that the goal is out of reach.
        | none => s

/-- More steps than any run takes. -/
def patience : Nat := Nat.pow 10 18

/-- Lets time pass until a goal is reached. -/
def await (s : Server) (goal : Goal) : Server := run patience goal s

end Server

end Klaxon
