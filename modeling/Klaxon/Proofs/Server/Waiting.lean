import Klaxon.Proofs.Server.Ticks

/-!
# No id waits forever

New ids come to the end of a lane, and only a batch takes ids away, from the front
(`Ticking.lane_step`). So an id whose lane has given enough batches has left it, whatever else is
requested, cancelled, pruned or drained meanwhile (`Sound.leaves`); and every tick that starts and
ends in a run takes a batch from each lane on its way (`ticksDone_le_pullsIn`).

`run_serves` puts this beside what is known of the ticks. That the ticks of a server are among them
is `Shows.tick`, and that whatever a server does is a run of `Ticking` is `LeadsTo.take`.
-/

namespace Klaxon

/-! ## Lanes -/

namespace Engine

variable {c e : Engine} {past : List Happening}

/-- An engine has new ids at the ends of its lanes. -/
def Queues (e e' : Engine) : Prop := ∀ p, ∃ more, e'.lanes.get p = e.lanes.get p ++ more

/-- Lanes that stay have no new ids. -/
theorem Queues.of_eq {e' : Engine} (h : e'.lanes = e.lanes) : e.Queues e' :=
  fun p => ⟨[], by rw [h, List.append_nil]⟩

/-- An id that is pushed comes to the end of its lane. -/
theorem queues_push {e' : Engine} {p : Priority} {id : String}
    (h : e'.lanes = e.lanes.push p id) : e.Queues e' := by
  intro q
  rw [h, Lanes.get_push]
  split
  · exact ⟨[id], rfl⟩
  · exact ⟨[], (List.append_nil _).symm⟩

/-- A new message comes to the end of its lane, or waits behind a timer. -/
theorem queues_accept (e : Engine) (d : Draft) (now : Instant) :
    e.Queues (e.accept d now).1 := by
  unfold accept
  simp only
  split
  · exact .of_eq rfl
  · exact queues_push rfl

/-- So it is with a request for one message. -/
theorem queues_submit (e : Engine) (draft : Except DispatchError Draft) (now : Instant) :
    e.Queues (e.submit draft now).1 := by
  unfold submit
  split
  · exact .of_eq rfl
  · exact e.queues_accept _ now

/-- So it is with the offer of an alert. -/
theorem queues_notifyOver (e : Engine) (alert : Alert) (recipient : Recipient)
    (priority : Priority) (now : Instant) (channelType : ChannelType) :
    e.Queues (e.notifyOver alert recipient priority now channelType).1 := by
  unfold notifyOver
  split
  · exact .of_eq rfl
  · split
    · exact .of_eq rfl
    · next slots _ _ => exact queues_accept { e with slots } _ now

/-- An id whose timer fires comes to the end of its lane, or nowhere. -/
theorem queues_fire (e : Engine) (timer : Timer) : e.Queues (e.fire timer) := by
  unfold fire requeue
  split
  · split
    · exact queues_push rfl
    · exact .of_eq rfl
  · exact .of_eq rfl

/-- A turn that pulls no batch leaves all ids in their lanes. -/
theorem queues_turn (e : Engine) (now : Instant) {t : Turn} (ht : ∀ p, t ≠ .pull p) :
    e.Queues (e.turn now t) := by
  cases t with
  | offer alert recipient priority channelType =>
    exact e.queues_notifyOver alert recipient priority now channelType
  | sendCustom => exact e.queues_submit _ now
  | sendWebhook => exact e.queues_submit _ now
  | cancel id => exact .of_eq (e.undisturbed_cancel id).lanes
  | pull p => exact absurd rfl (ht p)
  | claim id =>
    simp only [turn]
    split
    · exact .of_eq (e.undisturbed_claim id now).lanes
    · exact .of_eq rfl
  | attempt id =>
    simp only [turn]
    split
    · next m attemptedAt _ => exact .of_eq (e.undisturbed_attempt m attemptedAt now).lanes
    · exact .of_eq rfl
  | complete id report => exact .of_eq (e.undisturbed_complete id report now).lanes
  | fire timer =>
    simp only [turn]
    split
    · exact e.queues_fire timer
    · exact .of_eq rfl
  | _ => exact .of_eq rfl

/-- An id stands in a lane once. -/
theorem Sound.nodup_lane (h : c.Sound e past) (p : Priority) : (e.lanes.get p).Nodup := by
  rw [List.nodup_iff_count]
  intro id
  obtain ⟨v, hat, -⟩ := h.life id
  rw [hat.lanes p]
  unfold Handle.laneCount
  split
  · split <;> decide
  · decide

end Engine

namespace Ticking

variable {c : Engine} {t : Ticking} {p : Priority}

/-- Whether a batch is taken from a lane. -/
def pulls (t : Ticking) (p : Priority) : Act → Bool
  | .turn (.pull q) => decide (q = p)
  | .batch n =>
    match t.drains[n]? with
    | some w => w.drain.isReady t.server.calls && decide (w.drain.lanes.head? = some p)
    | none => false
  | _ => false

/-- The number of batches that are taken from a lane in a run. -/
def pullsIn (t : Ticking) (p : Priority) : List Act → Nat
  | [] => 0
  | a :: rest => (t.pulls p a).toNat + (t.step a).pullsIn p rest

/-- Where a drain takes its next batch, it takes it from its first lane. -/
theorem pulls_batch {n : Nat} {w : Watched} (hn : t.drains[n]? = some w)
    (hready : w.drain.isReady t.server.calls = true) (p : Priority) :
    t.pulls p (.batch n) = decide (w.drain.lanes.head? = some p) := by
  simp only [pulls, hn, hready, Bool.true_and]

/-- Where nothing happens, no batch is taken. -/
theorem pulls_batch_of_not_isReady {n : Nat}
    (h : ∀ w, t.drains[n]? = some w → w.drain.isReady t.server.calls = false) (p : Priority) :
    t.pulls p (.batch n) = false := by
  unfold pulls
  simp only
  split
  · next w hn => rw [h w hn, Bool.false_and]
  · rfl

/-- The batch sizes stay the same. -/
theorem batchSize_step (t : Ticking) (a : Act) (p : Priority) :
    (t.step a).batchSize p = t.batchSize p := by
  have hpolicy : (t.act a).server.engine.policy = t.server.engine.policy := by
    cases a with
    | turn turn => exact (t.server.engine.turn_leaves t.server.now turn).policy
    | answer n =>
      rcases t.act_answer n with hnone | ⟨call, -, heq⟩
      · rw [hnone]
      · rw [heq]
        exact (t.server.engine.undisturbed_complete call.messageId call.report t.server.now).policy
    | batch n =>
      rcases t.act_batch n with ⟨hnone, -⟩ | ⟨w, hn, hready⟩
      · rw [hnone]
      · rw [act_batch_of_isReady hn hready]
        obtain ⟨q, rest, hd⟩ := List.exists_cons_of_ne_nil (isReady_iff.mp hready).1
        have hbatch := Server.undisturbed_beginAll
          { t.server with engine := (t.server.engine.pull q).1 } (t.server.engine.pull q).2
        unfold Server.stepDrain
        rw [hd]
        exact hbatch.policy
    | _ => rfl
  unfold batchSize
  exact congrArg (fun policy => policy.batchSize p) hpolicy

/-- A lane loses a batch at its front when one is taken, and gets new ids at its end otherwise. -/
theorem lane_step (t : Ticking) (a : Act) (p : Priority) :
    if t.pulls p a then (t.step a).lane p = (t.lane p).drop (t.batchSize p)
    else ∃ more, (t.step a).lane p = t.lane p ++ more := by
  have hqueues {a : Act} (hp : t.pulls p a = false)
      (h : t.server.engine.Queues (t.act a).server.engine) :
      if t.pulls p a then (t.step a).lane p = (t.lane p).drop (t.batchSize p)
      else ∃ more, (t.step a).lane p = t.lane p ++ more := by
    rw [hp]
    exact h p
  -- A batch from the lane shortens it, and one from another lane leaves it alone.
  have hpulls {a : Act} {q : Priority} (hp : t.pulls p a = decide (q = p))
      (h : (t.step a).lane p = if p = q then (t.lane p).drop (t.batchSize p) else t.lane p) :
      if t.pulls p a then (t.step a).lane p = (t.lane p).drop (t.batchSize p)
      else ∃ more, (t.step a).lane p = t.lane p ++ more := by
    rw [hp, h]
    by_cases hq : q = p
    · rw [decide_eq_true hq, if_pos rfl, if_pos hq.symm]
    · rw [decide_eq_false hq, if_neg (Ne.symm hq)]
      exact ⟨[], (List.append_nil _).symm⟩
  cases a with
  | turn turn =>
    -- A pull is the one turn that takes a batch.
    by_cases hpull : ∃ q, turn = .pull q
    · obtain ⟨q, rfl⟩ := hpull
      refine hpulls (q := q) rfl ?_
      refine (Lanes.get_pull t.server.engine.lanes q p (t.batchSize q)).trans ?_
      split
      · next hq => rw [hq]; rfl
      · rfl
    · have hno : ∀ q, turn ≠ .pull q := fun q hq => hpull ⟨q, hq⟩
      have hnone : t.pulls p (.turn turn) = false := by
        cases turn with
        | pull q => exact absurd rfl (hno q)
        | _ => rfl
      exact hqueues hnone (t.server.engine.queues_turn t.server.now hno)
  | answer n =>
    refine hqueues rfl ?_
    rcases t.act_answer n with hnone | ⟨call, -, heq⟩
    · rw [hnone]
      exact .of_eq rfl
    · rw [heq]
      exact .of_eq
        (t.server.engine.undisturbed_complete call.messageId call.report t.server.now).lanes
  | batch n =>
    rcases t.act_batch n with ⟨hnone, hnot⟩ | ⟨w, hn, hready⟩
    · refine hqueues (pulls_batch_of_not_isReady hnot p) ?_
      rw [hnone]
      exact .of_eq rfl
    · obtain ⟨q, rest, hd⟩ := List.exists_cons_of_ne_nil (isReady_iff.mp hready).1
      refine hpulls (q := q) ?_ ?_
      · rw [pulls_batch hn hready, hd]
        simp only [List.head?_cons, Option.some.injEq]
      · unfold step
        rw [act_batch_of_isReady hn hready]
        exact lanes_stepDrain t.server hd p
  | _ => exact hqueues rfl (.of_eq rfl)

/-- An id whose lane gives enough batches leaves it. -/
theorem Sound.leaves (h : t.Sound c) (hs : t.IsSettled) {k : Nat} {id : String}
    (hk : (t.lane p)[k]? = some id) {acts : List Act}
    (hpulls : k < t.pullsIn p acts * t.batchSize p) :
    ∃ before, before <+: acts ∧ id ∉ (t.run before).lane p := by
  -- Each batch brings the id forward by its size, or takes it.
  induction acts generalizing t k with
  | nil => simp [pullsIn] at hpulls
  | cons a rest ih =>
    have hstep := t.lane_step a p
    have hsound := (h.act hs a).settle
    have hsettled := (t.act a).settle_isSettled
    unfold pullsIn at hpulls
    have hlater : (∃ before, before <+: rest ∧ id ∉ ((t.step a).run before).lane p) →
        ∃ before, before <+: a :: rest ∧ id ∉ (t.run before).lane p := by
      rintro ⟨before, hprefix, hleft⟩
      exact ⟨a :: before, List.cons_prefix_cons.mpr ⟨rfl, hprefix⟩, hleft⟩
    cases hp : t.pulls p a with
    | false =>
      rw [hp] at hstep hpulls
      obtain ⟨more, hmore⟩ := hstep
      apply hlater
      -- No batch is taken: the id keeps its place, and new ones come behind it.
      refine ih hsound hsettled ?_ ?_ (k := k)
      · have hlt := (List.getElem?_eq_some_iff.mp hk).1
        rw [hmore, List.getElem?_append_left hlt]
        exact hk
      · rw [batchSize_step]
        simpa using hpulls
    | true =>
      rw [hp, if_pos rfl] at hstep
      rw [hp, Bool.toNat_true, Nat.add_mul, Nat.one_mul] at hpulls
      by_cases hfirst : k < t.batchSize p
      · -- The id is in this batch, and in its lane only once.
        refine ⟨[a], List.cons_prefix_cons.mpr ⟨rfl, List.nil_prefix⟩, ?_⟩
        show id ∉ (t.step a).lane p
        rw [hstep]
        intro hmem
        obtain ⟨past, hengine⟩ := h.engine
        have hnodup : (t.lane p).Nodup := hengine.nodup_lane p
        obtain ⟨j, hj, hjid⟩ := List.mem_iff_getElem.mp hmem
        rw [List.length_drop] at hj
        rw [List.getElem_drop] at hjid
        obtain ⟨hlt, hkid⟩ := List.getElem?_eq_some_iff.mp hk
        have heq := (List.Nodup.getElem_inj_iff hnodup).mp (hjid.trans hkid.symm)
        omega
      · apply hlater
        refine ih hsound hsettled ?_ ?_ (k := k - t.batchSize p)
        · rw [hstep, List.getElem?_drop, Nat.add_sub_cancel' (Nat.le_of_not_lt hfirst)]
          exact hk
        · rw [batchSize_step]
          omega

/-! ## Complete ticks -/

/-- A tick is past a lane. -/
def isPast (p : Priority) (w : Watched) : Bool := w.isTick && !w.drain.lanes.contains p

/-- The number of ticks that are past a lane, but for the first drains. -/
def past (t : Ticking) (first : Nat) (p : Priority) : Nat :=
  (t.drains.drop first).countP (isPast p)

/-- The number of ticks that start in a run and are over at its end. -/
def ticksDone (t : Ticking) (acts : List Act) : Nat :=
  ((t.run acts).drains.drop t.drains.length).countP fun w =>
    w.isTick && w.drain.isDone (t.run acts).server.calls

/-- One item of a list is changed, and the others are counted as before. -/
theorem countP_set {α : Type} (f : α → Bool) {l : List α} {n : Nat} {a : α} (h : l[n]? = some a)
    (b : α) : (l.set n b).countP f + (f a).toNat = l.countP f + (f b).toNat := by
  induction l generalizing n with
  | nil => simp at h
  | cons x rest ih =>
    cases n with
    | zero =>
      obtain rfl : x = a := by simpa using h
      -- The head is the item that is changed, so it counts as the new one does.
      cases hx : f x <;> cases hb : f b <;> simp [hx, hb]
    | succ n =>
      have hrest := ih (n := n) (by simpa using h)
      cases hx : f x
      · simpa [hx] using hrest
      · simp only [List.set_cons_succ, List.countP_cons, hx, if_true]
        omega

/-- A drain that starts is not past any lane. -/
theorem past_start (t : Ticking) (first : Nat) {d : Drain}
    (hd : isPast p (.start d) = false) :
    Ticking.past { t with drains := t.drains ++ [.start d] } first p = t.past first p := by
  have hnone : ∀ m, ([Watched.start d].drop m).countP (isPast p) = 0 := by
    intro m
    rw [List.countP_eq_zero]
    intro w hw
    rw [List.mem_singleton.mp (List.mem_of_mem_drop hw), hd]
    simp
  unfold past
  rw [List.drop_append, List.countP_append, hnone, Nat.add_zero]

/-- A tick comes past a lane by taking a batch from it. -/
theorem isPast_step {w : Watched} (s : Server) (h : isPast p (w.step s) = true) :
    isPast p w = true ∨ w.drain.lanes.head? = some p := by
  unfold isPast at h ⊢
  rw [Bool.and_eq_true, Bool.not_eq_true', isTick_step] at h
  obtain ⟨htick, hnot⟩ := h
  rw [lanes_step htick] at hnot
  rw [htick, Bool.true_and]
  cases hd : w.drain.lanes with
  | nil => exact .inl rfl
  | cons q rest =>
    by_cases hq : q = p
    · exact .inr (congrArg some hq)
    · left
      rw [hd, List.tail_cons, List.contains_eq_mem, decide_eq_false_iff_not] at hnot
      rw [List.contains_eq_mem, Bool.not_eq_true', decide_eq_false_iff_not, List.mem_cons, not_or]
      exact ⟨Ne.symm hq, hnot⟩

/-- One more tick is past a lane at most when a batch is taken from it, and none otherwise. -/
theorem past_step (t : Ticking) (first : Nat) (p : Priority) (a : Act) :
    (t.step a).past first p ≤ t.past first p + (t.pulls p a).toNat := by
  have hsettle : (t.act a).settle.past first p = (t.act a).past first p := by
    unfold settle past
    rw [← List.map_drop, List.countP_map]
    rfl
  unfold step
  rw [hsettle]
  cases a with
  | turn | alter => exact Nat.le_add_right _ _
  | answer n =>
    rcases t.act_answer n with hnone | ⟨call, -, heq⟩
    · rw [hnone]
      exact Nat.le_add_right _ _
    · rw [heq]
      exact Nat.le_add_right _ _
  | tick =>
    have hall : isPast p (.start .everyLane) = false := by cases p <;> rfl
    exact Nat.le_of_eq (t.past_start first hall)
  | urge => exact Nat.le_of_eq (t.past_start first rfl)
  | batch n =>
    rcases t.act_batch n with ⟨hnone, -⟩ | ⟨w, hn, hready⟩
    · rw [hnone]
      exact Nat.le_add_right _ _
    · rw [act_batch_of_isReady hn hready, pulls_batch hn hready]
      unfold past
      -- The drain is one of the first, which are not counted, or it is counted once.
      rw [List.drop_set]
      split
      · exact Nat.le_add_right _ _
      · next hle =>
        have hdrop : (t.drains.drop first)[n - first]? = some w := by
          rw [List.getElem?_drop, Nat.add_sub_cancel' (Nat.le_of_not_lt hle)]
          exact hn
        have hset := countP_set (isPast p) hdrop (w.step t.server)
        have hstep : (isPast p (w.step t.server)).toNat ≤
            (isPast p w).toNat + (decide (w.drain.lanes.head? = some p)).toNat := by
          cases hnew : isPast p (w.step t.server) with
          | false => exact Nat.zero_le _
          | true =>
            rcases isPast_step t.server hnew with hold | hhead
            · rw [hold]
              exact Nat.le_add_right _ _
            · rw [decide_eq_true hhead]
              exact Nat.le_add_left _ _
        omega

/-- In a run no more ticks come past a lane than batches are taken from it. -/
theorem past_run (t : Ticking) (first : Nat) (p : Priority) (acts : List Act) :
    (t.run acts).past first p ≤ t.past first p + t.pullsIn p acts := by
  induction acts generalizing t with
  | nil => exact Nat.le_refl _
  | cons a rest ih =>
    have hrest := ih (t.step a)
    have hfirst := t.past_step first p a
    unfold run pullsIn
    omega

/-- Every tick that starts in a run and is over at its end takes a batch from each lane. -/
theorem ticksDone_le_pullsIn (t : Ticking) (acts : List Act) (p : Priority) :
    t.ticksDone acts ≤ t.pullsIn p acts := by
  have hrun := t.past_run t.drains.length p acts
  have hnone : t.past t.drains.length p = 0 := by
    unfold past
    rw [List.drop_length]
    rfl
  have hdone : t.ticksDone acts ≤ (t.run acts).past t.drains.length p := by
    refine List.countP_mono_left fun w _ hw => ?_
    rw [Bool.and_eq_true] at hw
    obtain ⟨htick, hover⟩ := hw
    unfold Drain.isDone at hover
    rw [Bool.and_eq_true, List.isEmpty_iff] at hover
    unfold isPast
    rw [htick, hover.1]
    rfl
  omega

/-- An id leaves its lane once as many ticks are over as its place in the lane takes batches. -/
theorem Sound.leaves_of_ticks (h : t.Sound c) (hs : t.IsSettled) {k : Nat} {id : String}
    (hk : (t.lane p)[k]? = some id) {acts : List Act}
    (hticks : k / t.batchSize p < t.ticksDone acts) :
    ∃ before, before <+: acts ∧ id ∉ (t.run before).lane p := by
  have hpos : 0 < t.batchSize p := t.server.engine.policy.batchSize_pos p
  have hpulls : k / t.batchSize p < t.pullsIn p acts :=
    Nat.lt_of_lt_of_le hticks (t.ticksDone_le_pullsIn acts p)
  exact h.leaves hs hk ((Nat.div_lt_iff_lt_mul hpos).mp hpulls)

/-- One tick, with a batch from each lane, is enough for the first id of a lane. -/
example :
    let alert : Alert := { Engine.blaze with severity := .critical }
    let t : Ticking := ⟨Server.behind [(.epoch, .sendWebhook alert "hook" none)] .epoch, []⟩
    t.lane .immediate = ["m1"] ∧ t.ticksDone (.tick :: List.replicate 5 (.batch 0)) = 1 :=
  ⟨rfl, rfl⟩

end Ticking

end Klaxon
