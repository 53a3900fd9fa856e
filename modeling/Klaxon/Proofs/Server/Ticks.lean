import Klaxon.Proofs.Server.OpenCalls

/-!
# Ticks

A tick is a drain that takes one batch from each lane. Any number of them may be under way at once:
the ticker starts them, and so does whoever asks for one, while drains of the most urgent lane and
all other work go on. `Ticking` is a server with its drains, each with a record of what it took;
`Ticking.step` lets one thing happen: the engine takes a turn, an answer comes, a drain starts or
takes its next batch, or anything else about the server changes.

In every state that this comes to, a tick goes down the lanes in their order (`Sound.goesDown`): it
takes the oldest ids of a lane, no more than the batch size, claims them in their order, and does
not turn to the next lane before all of them are over.
-/

namespace Klaxon

/-- The id that a turn claims. -/
def Turn.claimed? : Turn → Option String
  | .claim id => some id
  | _ => none

/-- The next batch of a drain with its lane, if there is a lane left. -/
def Server.nextBatch (s : Server) (d : Drain) : List (Priority × List String) :=
  d.lanes.head?.toList.map fun lane => (lane, (s.engine.pull lane).2)

/-- A drain, with what it took. -/
structure Watched where
  drain : Drain
  /-- The batches that it took and their lanes, the first one first. -/
  batches : List (Priority × List String)
  /-- The ids that it took whose flights have not been over since. -/
  pending : List String

namespace Watched

/-- A drain that starts. -/
def start (d : Drain) : Watched := ⟨d, [], []⟩

/-- Whether a drain takes one batch from each lane. -/
def isTick (w : Watched) : Bool := !w.drain.thorough

/-- A drain that takes its next batch from a server. -/
def step (w : Watched) (s : Server) : Watched :=
  { drain := (s.stepDrain w.drain).2
    batches := w.batches ++ s.nextBatch w.drain
    pending := w.pending ++ (s.nextBatch w.drain).flatMap Prod.snd }

/-- Notes which flights are over. -/
def settle (w : Watched) (e : Engine) : Watched :=
  { w with pending := w.pending.filter fun id => (e.stage? id).isSome }

end Watched

/-- A server with all its drains, whoever started them. -/
structure Ticking where
  server : Server
  drains : List Watched

namespace Ticking

/-- Something that happens. -/
inductive Act where
  /-- The engine takes a turn: a request is made, a message is cancelled, a timer fires, or it works
  on a message in any other way. -/
  | turn (turn : Turn)
  /-- The answer to an open call comes. -/
  | answer (n : Nat)
  /-- The server changes, but for its engine and the open calls. -/
  | alter (other : Server)
  /-- A tick starts. -/
  | tick
  /-- A drain of the most urgent lane starts. -/
  | urge
  /-- A drain takes its next batch, if it can. -/
  | batch (n : Nat)

/-- Lets something happen. -/
def act (t : Ticking) : Act → Ticking
  | .turn turn =>
    { t with server := { t.server with engine := t.server.engine.turn t.server.now turn } }
  | .answer n =>
    match t.server.calls[n]? with
    | some call => { t with server := t.server.move (.answer call) }
    | none => t
  | .alter other =>
    { t with
      server := { other with
        engine := t.server.engine, calls := t.server.calls, callsMade := t.server.callsMade } }
  | .tick => { t with drains := t.drains ++ [.start .everyLane] }
  | .urge => { t with drains := t.drains ++ [.start .urgent] }
  | .batch n =>
    match t.drains[n]? with
    | some w =>
      if w.drain.isReady t.server.calls then
        ⟨(t.server.stepDrain w.drain).1, t.drains.set n (w.step t.server)⟩
      else t
    | none => t

/-- Notes which flights are over. -/
def settle (t : Ticking) : Ticking :=
  { t with drains := t.drains.map fun w => w.settle t.server.engine }

/-- Lets something happen, and notes which flights are over then. -/
def step (t : Ticking) (a : Act) : Ticking := (t.act a).settle

/-- Lets one thing happen after the other. -/
def run (t : Ticking) : List Act → Ticking
  | [] => t
  | a :: rest => (t.step a).run rest

/-- A server that was just assembled, without drains. -/
def opening (plugins : Plugins Carrier) (config : ServerConfig) (outside : Outside)
    (now : Instant) (idSupply : IdSupply) : Ticking :=
  ⟨.create (assemble plugins config idSupply) config.inboxCapacity.toNat outside now, []⟩

/-- The ids that wait in a lane, the oldest first. -/
def lane (t : Ticking) (p : Priority) : List String := t.server.engine.lanes.get p

/-- The most ids that a batch of a lane has. -/
def batchSize (t : Ticking) (p : Priority) : Nat := t.server.engine.policy.batchSize p

/-- A run of two parts is the one and then the other. -/
@[simp] theorem run_append (t : Ticking) (acts more : List Act) :
    t.run (acts ++ more) = (t.run acts).run more := by
  induction acts generalizing t with
  | nil => rfl
  | cons a rest ih => exact ih (t.step a)

/-! ## What happens -/

variable {c : Engine} {t : Ticking}

/-- A tick stays a tick. -/
theorem isTick_step (w : Watched) (s : Server) : (w.step s).isTick = w.isTick := by
  unfold Watched.isTick Watched.step Server.stepDrain
  cases w.drain.lanes <;> rfl

/-- A tick turns to its next lane with each batch. -/
theorem lanes_step {w : Watched} (h : w.isTick = true) (s : Server) :
    (w.step s).drain.lanes = w.drain.lanes.tail := by
  unfold Watched.isTick at h
  rw [Bool.not_eq_true'] at h
  exact (s.stepDrain_once h).2

/-- A drain that can go on has a lane left, and waits for no call. -/
theorem isReady_iff {d : Drain} {calls : List OpenCall} :
    d.isReady calls = true ↔ d.lanes ≠ [] ∧ d.isWaiting calls = false := by
  unfold Drain.isReady
  rw [Bool.and_eq_true, Bool.not_eq_true', Bool.not_eq_true', List.isEmpty_eq_false_iff]

/-- An answer comes to one of the open calls, or nothing happens. -/
theorem act_answer (t : Ticking) (n : Nat) :
    t.act (.answer n) = t ∨ ∃ call ∈ t.server.calls,
      t.act (.answer n) = { t with server := t.server.move (.answer call) } := by
  unfold act
  simp only
  split
  · next call hcall => exact .inr ⟨call, List.mem_of_getElem? hcall, rfl⟩
  · exact .inl rfl

/-- A drain that can go on takes its next batch. -/
theorem act_batch_of_isReady {n : Nat} {w : Watched} (hn : t.drains[n]? = some w)
    (hready : w.drain.isReady t.server.calls = true) :
    t.act (.batch n) = ⟨(t.server.stepDrain w.drain).1, t.drains.set n (w.step t.server)⟩ := by
  unfold act
  simp only [hn, hready, if_true]

/-- A drain takes its next batch, or nothing happens. -/
theorem act_batch (t : Ticking) (n : Nat) :
    (t.act (.batch n) = t ∧
      ∀ w, t.drains[n]? = some w → w.drain.isReady t.server.calls = false) ∨
    ∃ w, t.drains[n]? = some w ∧ w.drain.isReady t.server.calls = true := by
  cases hn : t.drains[n]? with
  | none =>
    have hnone : t.act (.batch n) = t := by
      unfold act
      simp only [hn]
    exact .inl ⟨hnone, fun w hw => by simp at hw⟩
  | some w =>
    cases hready : w.drain.isReady t.server.calls with
    | false =>
      have hnone : t.act (.batch n) = t := by
        unfold act
        simp only [hn, hready]
        rfl
      refine .inl ⟨hnone, fun v hv => ?_⟩
      obtain rfl := Option.some.inj hv
      exact hready
    | true => exact .inr ⟨w, rfl, hready⟩

/-! ## What every drain keeps -/

/-- A tick took a batch from each lane above those that are still to come. -/
def GoesOn (w : Watched) : Prop :=
  w.isTick = true → w.batches.map Prod.fst ++ w.drain.lanes = Priority.all

/-- A drain that starts has all its lanes to come. -/
theorem goesOn_start (d : Drain) (h : d.thorough = false → d.lanes = Priority.all) :
    GoesOn (.start d) := by
  intro htick
  unfold Watched.isTick at htick
  rw [Bool.not_eq_true'] at htick
  exact h htick

/-- A batch takes a tick on by one lane. -/
theorem GoesOn.step {w : Watched} (h : GoesOn w) (s : Server) : GoesOn (w.step s) := by
  intro htick
  rw [isTick_step] at htick
  have hbatches : (w.step s).batches.map Prod.fst =
      w.batches.map Prod.fst ++ (s.nextBatch w.drain).map Prod.fst := List.map_append
  rw [hbatches, lanes_step htick, ← h htick, List.append_assoc]
  unfold Server.nextBatch
  cases w.drain.lanes <;> rfl

/-- What holds of a server and its drains throughout a run from an engine. -/
structure Sound (c : Engine) (t : Ticking) : Prop where
  engine : ∃ past, c.Sound t.server.engine past
  numbered : t.server.NumbersCalls
  goesOn : ∀ w ∈ t.drains, GoesOn w
  /-- What is in flight since a drain took it has an open call that the drain waits for. -/
  tracks : ∀ w ∈ t.drains, ∀ id ∈ w.pending, t.server.Tracks w.drain.calls id

/-- It is noted which flights are over. -/
def IsSettled (t : Ticking) : Prop :=
  ∀ w ∈ t.drains, ∀ id ∈ w.pending, (t.server.engine.stage? id).isSome

/-- After the notes nothing that is over is pending. -/
theorem settle_isSettled (t : Ticking) : t.settle.IsSettled := by
  intro w hw id hid
  obtain ⟨w, -, rfl⟩ := List.mem_map.mp hw
  exact (List.mem_filter.mp hid).2

/-- Notes change nothing else. -/
theorem Sound.settle (h : t.Sound c) : t.settle.Sound c := by
  refine ⟨h.engine, h.numbered, fun w hw => ?_, fun w hw id hid => ?_⟩
  · obtain ⟨w, hmem, rfl⟩ := List.mem_map.mp hw
    exact h.goesOn w hmem
  · obtain ⟨w, hmem, rfl⟩ := List.mem_map.mp hw
    exact h.tracks w hmem id (List.mem_of_mem_filter hid)

/-- What a drain took is waited for, as long as it is in flight. -/
theorem Sound.awaits (h : t.Sound c) (hs : t.IsSettled) {w : Watched} (hw : w ∈ t.drains)
    {id : String} (hid : id ∈ w.pending) : t.server.Awaits w.drain.calls id :=
  (h.tracks w hw id hid).awaits (hs w hw id hid)

/-- When none of its calls is open, all that a drain took is over. -/
theorem Sound.pending_eq_nil (h : t.Sound c) (hs : t.IsSettled) {w : Watched} (hw : w ∈ t.drains)
    (hidle : w.drain.isWaiting t.server.calls = false) : w.pending = [] := by
  rw [List.eq_nil_iff_forall_not_mem]
  intro id hid
  obtain ⟨-, call, hcall, -, hnumber⟩ := h.awaits hs hw hid
  have hwaiting : w.drain.isWaiting t.server.calls = true :=
    List.any_eq_true.mpr ⟨call, hcall, List.contains_iff_mem.mpr hnumber⟩
  rw [hwaiting] at hidle
  simp at hidle

/-- A drain that starts has taken nothing. -/
theorem Sound.start (h : t.Sound c) {d : Drain}
    (hd : d.thorough = false → d.lanes = Priority.all) :
    Sound c { t with drains := t.drains ++ [.start d] } := by
  refine ⟨h.engine, h.numbered, fun w hw => ?_, fun w hw id hid => ?_⟩
  · rcases List.mem_append.mp hw with hw | hw
    · exact h.goesOn w hw
    · rw [List.mem_singleton.mp hw]
      exact goesOn_start d hd
  · rcases List.mem_append.mp hw with hw | hw
    · exact h.tracks w hw id hid
    · rw [List.mem_singleton.mp hw] at hid
      exact absurd hid List.not_mem_nil

/-- A drain that takes its next batch waits for the calls of this batch. -/
theorem Sound.batch (h : t.Sound c) (hs : t.IsSettled) {n : Nat} {w : Watched}
    (hn : t.drains[n]? = some w) (hready : w.drain.isReady t.server.calls = true) :
    Sound c ⟨(t.server.stepDrain w.drain).1, t.drains.set n (w.step t.server)⟩ := by
  have hw : w ∈ t.drains := List.mem_of_getElem? hn
  obtain ⟨past, hsound⟩ := h.engine
  obtain ⟨hlanes, hidle⟩ := isReady_iff.mp hready
  refine ⟨?_, h.numbered.stepDrain hsound w.drain, fun v hv => ?_, fun v hv id hid => ?_⟩
  · have hruns := Server.RunsFrom.stepDrain
      (.refl t.server.engine : t.server.RunsFrom t.server.engine) hsound w.drain
    exact hsound.of_reaches hruns
  · rcases List.mem_or_eq_of_mem_set hv with hv | rfl
    · exact h.goesOn v hv
    · exact (h.goesOn w hw).step t.server
  · rcases List.mem_or_eq_of_mem_set hv with hv | rfl
    · -- The other drains wait as before.
      exact .inr ((h.awaits hs hv hid).stepDrain hsound w.drain)
    · -- This one has nothing left of its earlier batches.
      have hnil := h.pending_eq_nil hs hw hidle
      obtain ⟨lane, rest, hd⟩ := List.exists_cons_of_ne_nil hlanes
      have hbatch : (w.step t.server).pending = (t.server.engine.pull lane).2 := by
        unfold Watched.step Server.nextBatch
        simp only [hnil, hd, List.head?_cons, Option.toList_some, List.map_cons, List.map_nil,
          List.flatMap_cons, List.flatMap_nil, List.append_nil, List.nil_append]
      rw [hbatch] at hid
      exact (Server.handsOver_stepDrain hsound hd).tracks id hid

/-- Whatever happens, a server and its drains keep what holds of them. -/
theorem Sound.act (h : t.Sound c) (hs : t.IsSettled) (a : Act) : (t.act a).Sound c := by
  have hengine := h.engine
  obtain ⟨past, hsound⟩ := hengine
  cases a with
  | turn turn =>
    have hturned := hsound.of_reaches (t.server.engine.reaches_turn t.server.now turn)
    refine ⟨hturned, ⟨h.numbered.nodup, h.numbered.made⟩, h.goesOn, fun w hw id hid => ?_⟩
    exact (h.awaits hs hw hid).turn hsound turn
  | answer n =>
    rcases t.act_answer n with hnone | ⟨call, hmem, heq⟩
    · rw [hnone]
      exact h
    · rw [heq]
      have hcompleted := hsound.of_reaches
        (t.server.engine.reaches_turn t.server.now (.complete call.messageId call.report))
      refine ⟨hcompleted, h.numbered.filter rfl rfl, h.goesOn, fun w hw id hid => ?_⟩
      exact (h.awaits hs hw hid).answer hsound h.numbered hmem
  | alter other =>
    refine ⟨h.engine, ⟨h.numbered.nodup, h.numbered.made⟩, h.goesOn, fun w hw id hid => ?_⟩
    -- The engine and the open calls stay, and these are all that is tracked.
    obtain ⟨hcalling, hcall⟩ := h.awaits hs hw hid
    exact .inr ⟨hcalling, hcall⟩
  | tick => exact h.start fun _ => rfl
  | urge => exact h.start fun honce => by simp [Drain.urgent] at honce
  | batch n =>
    rcases t.act_batch n with ⟨hnone, -⟩ | ⟨w, hn, hready⟩
    · rw [hnone]
      exact h
    · rw [act_batch_of_isReady hn hready]
      exact h.batch hs hn hready

/-- So it is throughout a run. -/
theorem Sound.run (h : t.Sound c) (hs : t.IsSettled) (acts : List Act) :
    (t.run acts).Sound c ∧ (t.run acts).IsSettled := by
  induction acts generalizing t with
  | nil => exact ⟨h, hs⟩
  | cons a rest ih => exact ih (h.act hs a).settle (t.act a).settle_isSettled

/-- It holds of a server that was just assembled. -/
theorem opening_sound (plugins : Plugins Carrier) (config : ServerConfig) (outside : Outside)
    (now : Instant) (idSupply : IdSupply) :
    (opening plugins config outside now idSupply).Sound
        (assemble plugins config idSupply).engine ∧
      (opening plugins config outside now idSupply).IsSettled := by
  refine ⟨⟨⟨[], assemble_sound plugins config idSupply⟩, ⟨.nil, ?_⟩, ?_, ?_⟩, ?_⟩ <;>
    exact fun _ hmem => absurd hmem List.not_mem_nil

/-! ## The next batch -/

/-- The ids of a batch are claimed in their order, and no others. -/
theorem claimed_beginAllTurns (s : Server) (ids : List String) :
    (s.beginAllTurns ids).filterMap (fun x => x.2.claimed?) = ids := by
  induction ids generalizing s with
  | nil => rfl
  | cons id rest ih =>
    have hfirst : (s.beginTurns id).filterMap (fun x => x.2.claimed?) = [id] := by
      unfold Server.beginTurns
      split
      · rfl
      · simp only
        split <;> rfl
    unfold Server.beginAllTurns
    rw [List.filterMap_append, hfirst, ih]
    rfl

/-- The step of a drain claims the ids of its next batch. -/
theorem claimed_stepTurns (s : Server) {d : Drain} {p : Priority} {rest : List Priority}
    (hd : d.lanes = p :: rest) :
    (s.stepTurns d).filterMap (fun x => x.2.claimed?) = (s.engine.pull p).2 := by
  unfold Server.stepTurns
  rw [hd]
  exact claimed_beginAllTurns _ _

/-- The step of a drain takes a batch from its first lane, and leaves the other lanes as they
are. -/
theorem lanes_stepDrain (s : Server) {d : Drain} {p : Priority} {rest : List Priority}
    (hd : d.lanes = p :: rest) (q : Priority) :
    (s.stepDrain d).1.engine.lanes.get q =
      if q = p then (s.engine.lanes.get q).drop (s.engine.policy.batchSize q)
      else s.engine.lanes.get q := by
  have hlanes := (Server.undisturbed_beginAll { s with engine := (s.engine.pull p).1 }
    (s.engine.pull p).2).lanes
  unfold Server.stepDrain
  rw [hd]
  show (Server.beginAll _ _).1.engine.lanes.get q = _
  rw [hlanes]
  refine (Lanes.get_pull s.engine.lanes p q _).trans ?_
  split
  · next hq => rw [hq]
  · rfl

/-- A drain takes its next batch from a lane. -/
structure TakesBatch (t : Ticking) (n : Nat) (w : Watched) (p : Priority) : Prop where
  /-- All ids that it took before are over. -/
  ended : w.pending = []
  /-- It took its batch from every lane above. -/
  above : ∀ q : Priority, q.index < p.index → q ∈ w.batches.map Prod.fst
  /-- It takes the oldest ids of the lane. -/
  taken : (t.step (.batch n)).drains[n]?.map Watched.batches =
    some (w.batches ++ [(p, (t.lane p).take (t.batchSize p))])
  left : (t.step (.batch n)).lane p = (t.lane p).drop (t.batchSize p)
  others : ∀ q, q ≠ p → (t.step (.batch n)).lane q = t.lane q
  /-- It claims these ids in their order, and no others. -/
  turns : (t.step (.batch n)).server.engine =
    t.server.engine.run (t.server.stepTurns w.drain)
  claims : (t.server.stepTurns w.drain).filterMap (fun x => x.2.claimed?) =
    (t.lane p).take (t.batchSize p)

/-- A tick goes down the lanes. -/
structure GoesDown (t : Ticking) (n : Nat) (w : Watched) : Prop where
  /-- It took one batch from each lane above those that are still to come. -/
  order : w.batches.map Prod.fst ++ w.drain.lanes = Priority.all
  /-- What it took is over when it waits for no call. -/
  ended : w.drain.isWaiting t.server.calls = false → w.pending = []
  next : w.drain.isReady t.server.calls = true →
    ∃ p rest, w.drain.lanes = p :: rest ∧ t.TakesBatch n w p

/-- In their order, the lanes above one are those before it. -/
theorem mem_of_index_lt {before after : List Priority} {p q : Priority}
    (h : before ++ p :: after = Priority.all) (hlt : q.index < p.index) : q ∈ before := by
  have hsorted : (before ++ p :: after).Pairwise fun a b => a.index < b.index := by
    rw [h]
    decide
  have hmem : q ∈ before ++ p :: after := by
    rw [h]
    exact q.mem_all
  rcases List.mem_append.mp hmem with hbefore | hafter
  · exact hbefore
  · -- A lane that is not before this one is the same or below it.
    have hbehind := (List.pairwise_append.mp hsorted).2.1
    rcases List.mem_cons.mp hafter with rfl | hafter
    · omega
    · have := (List.pairwise_cons.mp hbehind).1 q hafter
      omega

/-- A tick that can go on takes the next batch. -/
theorem Sound.takesBatch (h : t.Sound c) (hs : t.IsSettled) {n : Nat} {w : Watched}
    (hn : t.drains[n]? = some w) (htick : w.isTick = true)
    (hready : w.drain.isReady t.server.calls = true) {p : Priority} {rest : List Priority}
    (hd : w.drain.lanes = p :: rest) : t.TakesBatch n w p := by
  have hw : w ∈ t.drains := List.mem_of_getElem? hn
  obtain ⟨past, hsound⟩ := h.engine
  have hstep := act_batch_of_isReady hn hready
  have hserver : (t.step (.batch n)).server = (t.server.stepDrain w.drain).1 :=
    congrArg Ticking.server hstep
  have hlane : ∀ q, (t.step (.batch n)).lane q =
      if q = p then (t.lane q).drop (t.batchSize q) else t.lane q := by
    intro q
    unfold Ticking.lane Ticking.batchSize
    rw [hserver]
    exact lanes_stepDrain t.server hd q
  constructor
  · exact h.pending_eq_nil hs hw (isReady_iff.mp hready).2
  · intro q hlt
    have horder := h.goesOn w hw htick
    rw [hd] at horder
    exact mem_of_index_lt horder hlt
  · -- The notes that follow the batch leave what the drain took as it is.
    have hdrains : (t.step (.batch n)).drains = (t.drains.set n (w.step t.server)).map fun v =>
        v.settle (t.step (.batch n)).server.engine := by
      unfold Ticking.step Ticking.settle
      rw [hstep]
    have hlt := (List.getElem?_eq_some_iff.mp hn).1
    rw [hdrains, List.getElem?_map, List.getElem?_set_self hlt]
    simp only [Option.map_some, Watched.settle, Watched.step, Server.nextBatch, hd,
      List.head?_cons, Option.toList_some, List.map_cons, List.map_nil]
    rfl
  · rw [hlane, if_pos rfl]
  · intro q hq
    rw [hlane, if_neg hq]
  · rw [hserver]
    exact Server.engine_stepDrain_eq hsound w.drain
  · exact claimed_stepTurns t.server hd

/-- Every tick goes down the lanes. -/
theorem Sound.goesDown (h : t.Sound c) (hs : t.IsSettled) {n : Nat} {w : Watched}
    (hn : t.drains[n]? = some w) (htick : w.isTick = true) : t.GoesDown n w := by
  have hw : w ∈ t.drains := List.mem_of_getElem? hn
  constructor
  · exact h.goesOn w hw htick
  · exact h.pending_eq_nil hs hw
  · intro hready
    obtain ⟨p, rest, hd⟩ := List.exists_cons_of_ne_nil (isReady_iff.mp hready).1
    exact ⟨p, rest, hd, h.takesBatch hs hn htick hready hd⟩

end Ticking

end Klaxon
