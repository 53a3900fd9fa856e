import Klaxon.Proofs.Dispatch.Batches
import Klaxon.Proofs.Dispatch.Budgets
import Klaxon.Proofs.Dispatch.Moments

/-!
# Nothing goes out early

Where the clock does not go back and timers do not fire before they are due, no attempt begins
before its time (`run_onTime`).

The clock is read before the turn comes that the time is for, and turns of other messages may slip
in. So it is only the times that are read for one message that have an order (`Engine.InOrder`). A
turn that does not work on a message does not depend on its time either, as far as the message goes
(`Sound.step_at_any_time`), so that a message is kept in time by every turn (`Timed.turn`).
-/

namespace Klaxon

/-! ## The clock -/

namespace Turn

/-- A timer that fires is due. -/
def IsDue (now : Instant) : Turn → Prop
  | .fire timer => timer.due ≤ now
  | _ => True

/-- Timers do not fire before they are due. -/
def OnlyDue (turns : List (Instant × Turn)) : Prop := ∀ t ∈ turns, t.2.IsDue t.1

instance (now : Instant) (t : Turn) : Decidable (t.IsDue now) := by
  unfold IsDue
  split <;> infer_instance

instance (turns : List (Instant × Turn)) : Decidable (OnlyDue turns) := by
  unfold OnlyDue
  infer_instance

end Turn

namespace Engine

/-- Whether the clock is read for a message in a turn: by the request that makes it, where its timer
fires, and in each step of its delivery. -/
def readsClock (id : String) (e : Engine) (now : Instant) (t : Turn) : Bool :=
  t.worksOn? == some id || t.isRequest && (e.happenings now t).any fun x => x.messageId == id

/-- The time of a turn that the clock is read for a message in. -/
def readingsOf (id : String) (e : Engine) (now : Instant) (t : Turn) : List Instant :=
  if e.readsClock id now t then [now] else []

/-- The times that are read for a message in a run. -/
def readings (e : Engine) (id : String) (turns : List (Instant × Turn)) : List Instant :=
  e.observe (readingsOf id) turns

/-- The clock does not go back: no time that is read for a message is earlier than those that were
read for it before. -/
def InOrder (e : Engine) (turns : List (Instant × Turn)) : Prop :=
  ∀ id, (e.readings id turns).Pairwise (· ≤ ·)

/-- The times that are read for one message are some of the times of the turns, in their order. -/
theorem readings_sublist (e : Engine) (id : String) (turns : List (Instant × Turn)) :
    (e.readings id turns).Sublist (turns.map Prod.fst) := by
  induction turns generalizing e with
  | nil => exact .slnil
  | cons t rest ih =>
    have hcons : e.readings id (t :: rest) =
        e.readingsOf id t.1 t.2 ++ (e.turn t.1 t.2).readings id rest := rfl
    rw [hcons]
    unfold readingsOf
    -- Either the head is read for the message and stands first on both sides, or it is left out.
    split
    · exact (ih _).cons_cons t.1
    · exact (ih _).cons t.1

/-- The clock does not go back where no turn is earlier than those before it. -/
theorem inOrder_of_pairwise (e : Engine) {turns : List (Instant × Turn)}
    (h : (turns.map Prod.fst).Pairwise (· ≤ ·)) : e.InOrder turns := fun id =>
  h.sublist (e.readings_sublist id turns)

/-! ## What is seen in turns -/

/-- The moments that are seen in a turn. -/
def momentsOf (e : Engine) (now : Instant) (t : Turn) : List Moment :=
  (e.happenings now t).filterMap fun x => x.moment? (e.stage? x.messageId)

/-- The moments that are seen in a run. -/
def moments (e : Engine) (turns : List (Instant × Turn)) : List Moment :=
  e.observe momentsOf turns

/-- The moments of an id are those of what happens to it. -/
theorem about_momentsOf (e : Engine) (now : Instant) (t : Turn) (id : String) :
    Moment.about id (e.momentsOf now t) =
      (Happening.about id (e.happenings now t)).filterMap
        (Happening.moment? (e.stage? id)) := by
  unfold momentsOf
  induction e.happenings now t with
  | nil => rfl
  | cons x hs ih =>
    unfold Moment.about Happening.about at ih ⊢
    -- The stage that a moment is read at is that of its own message, so the ids have to be compared
    -- first.
    by_cases hid : x.messageId = id
    · subst hid
      simp only [List.filterMap_cons, List.filter_cons, beq_self_eq_true, if_true]
      cases hx : x.moment? (e.stage? x.messageId) with
      | none => exact ih
      | some y => simp [Happening.messageId_of_moment? hx, ih]
    · simp only [List.filterMap_cons, List.filter_cons, beq_eq_false_iff_ne.mpr hid,
        Bool.false_eq_true, if_false]
      cases hx : x.moment? (e.stage? x.messageId) with
      | none => exact ih
      | some y => simp [Happening.messageId_of_moment? hx, hid, ih]

/-! ## Timers and other messages -/

/-- The timer of a position is there. -/
theorem At.mem_timers {e : Engine} {id : String} {v : Position} {t : Timer} (h : e.At id v)
    (ht : v.handle = some (.timer t)) : t ∈ e.timers ∧ t.messageId = id := by
  have hof : t ∈ e.timersOf id := by
    rw [h.timers, ht]
    exact List.mem_singleton_self t
  obtain ⟨hmem, hid⟩ := List.mem_filter.mp hof
  exact ⟨hmem, beq_iff_eq.mp hid⟩

/-- A timer stays the handle of its message until it fires. -/
theorem At.timer_turn {e : Engine} {id : String} {v v' : Position} (hat : e.At id v)
    {now : Instant} {t : Turn} (hat' : (e.turn now t).At id v') {timer : Timer}
    (hv : v.handle = some (.timer timer)) (ht : t ≠ .fire timer) :
    v'.handle = some (.timer timer) := by
  obtain ⟨hmem, rfl⟩ := hat.mem_timers hv
  exact hat'.handle_of_mem_timers ((e.turn_leaves now t).timers timer hmem ht)

/-- What is seen of a message in a turn that does not work on it is no moment. -/
theorem Sound.moment?_eq_none {e₀ e : Engine} {past : List Happening} (h : Sound e₀ e past)
    {now : Instant} {t : Turn} (ht : t.isRequest = false) {x : Happening}
    (hx : x ∈ e.happenings now t) (hne : t.worksOn? ≠ some x.messageId) (s : Option Stage) :
    x.moment? s = none := by
  have hrecorded : ∀ {after : Engine} {id : String}, x ∈ after.recorded id now →
      x.messageId = id := fun hx => by
    obtain ⟨m, hm, rfl⟩ := List.mem_map.mp hx
    exact id_of_message?_eq_some (Option.mem_toList.mp hm)
  cases t with
  | offer | holdBack | sendCustom | sendWebhook => simp [Turn.isRequest] at ht
  | cancel id =>
    simp only [happenings] at hx
    split at hx
    · obtain rfl := List.mem_singleton.mp hx
      rfl
    · simp at hx
  | attempt id =>
    refine absurd (congrArg some ?_) hne
    simp only [happenings] at hx
    split at hx
    · next m attemptedAt hstage =>
      rcases List.mem_cons.mp hx with rfl | hx
      · exact (h.claimed hstage).2.1.symm
      · split at hx
        · obtain rfl := List.mem_singleton.mp hx
          rfl
        · exact (hrecorded hx).symm
    · simp at hx
  | complete id report =>
    simp only [happenings] at hx
    split at hx
    · rcases List.mem_cons.mp hx with rfl | hx
      · rfl
      · exact absurd (congrArg some (hrecorded hx).symm) hne
    · simp at hx
  | _ => simp [happenings] at hx

/-- Nothing of a message is seen in a turn that does not work on it. -/
theorem Sound.about_momentsOf_eq_nil {e₀ e : Engine} {past : List Happening} (h : Sound e₀ e past)
    {now : Instant} {t : Turn} (ht : t.isRequest = false) {id : String}
    (hid : t.worksOn? ≠ some id) : Moment.about id (e.momentsOf now t) = [] := by
  rw [about_momentsOf, List.filterMap_eq_nil_iff]
  intro x hx
  obtain ⟨hx, hxid⟩ := List.mem_filter.mp hx
  exact h.moment?_eq_none ht hx (beq_iff_eq.mp hxid ▸ hid) _

/-- A turn that does not work on a message goes on with it as at any other time. -/
theorem Sound.step_at_any_time {e₀ e : Engine} {past : List Happening} (h : Sound e₀ e past)
    (now now' : Instant) {t : Turn} (ht : t.isRequest = false) {id : String}
    (hid : t.worksOn? ≠ some id) {v : Position} (hat : e.At id v) (hfits : v.Fits e₀ id) :
    ∃ v' hs, (e.turn now t).At id v' ∧ Step e₀ id now' v hs v' ∧
      hs.filterMap (Happening.moment? v.stage?) = [] := by
  cases hworks : t.worksOn? with
  | some j =>
    have hne : id ≠ j := fun heq => hid (heq ▸ hworks)
    exact ⟨v, [], hat.congr (h.turn_agrees now hworks hne), .stay v, rfl⟩
  | none =>
    -- The other turns do not look at the clock, but for the report, which is of the statistics.
    have hagrees : (e.turn now' t).Agrees (e.turn now t) id := by
      cases t with
      | report => exact ⟨rfl, fun _ => rfl, rfl, rfl⟩
      | claim | attempt | complete | fire => simp [Turn.worksOn?] at hworks
      | offer | holdBack | sendCustom | sendWebhook => simp [Turn.isRequest] at ht
      | _ => exact .refl _ id
    obtain ⟨v', hat', hstep⟩ := (turn_moves h now' ht).step id v hat hfits
    refine ⟨v', _, hat'.congr hagrees, hstep, ?_⟩
    rw [← hat.stage?_eq, ← about_momentsOf]
    exact h.about_momentsOf_eq_nil ht hid

/-! ## Runs -/

/-- What is seen of a message goes well with its times, and its position holds it at all times that
are no earlier than those that were read for the message. -/
structure Timed (e : Engine) (past : List Happening) (id : String) (seen : List Moment)
    (readings : List Instant) : Prop where
  onTime : Moment.OnTime seen
  /-- It is the times of the message that count: other turns may come earlier or later. -/
  holds : ∀ now, (∀ r ∈ readings, r ≤ now) → ∀ v, e.At id v → v.Holds seen now
  /-- A message that is still to be made has no moments. -/
  nothing : Happening.about id past = [] → seen = []

/-- A request that makes a message lets nothing begin too early. -/
theorem holds_firstHandle {d : Draft} {id : String} {now now' : Instant} (hnow : now ≤ now') :
    Position.Holds ⟨some (d.toMessage id now), some (firstHandle d id now)⟩
      [.made (d.toMessage id now)] now' := by
  have hopens : d.scheduledAt ≤ (firstHandle d id now).opensAt now' := by
    unfold firstHandle
    split
    · exact Int.le_refl _
    · next h => exact Int.le_trans (Int.not_lt.mp h) hnow
  have hidle := firstHandle_isIdle d id now
  intro x hx
  obtain rfl := Option.some.inj hx
  refine ⟨fun m hm => ?_, fun y hy opens ho => ?_, absurd hidle, fun call m hcall _ => ?_⟩
  · obtain rfl := Option.some.inj hm
    exact hopens
  · obtain rfl := List.mem_singleton.mp hy
    obtain rfl := Option.some.inj ho
    exact hopens
  · rw [hcall] at hidle
    exact hidle.elim

section Turns

variable {e₀ e : Engine} {past : List Happening} {id : String} {seen : List Moment}
  {readings : List Instant} {now : Instant} {t : Turn}

/-- A turn that works on a message reads the clock for it, once. -/
theorem readingsOf_of_worksOn (h : t.worksOn? = some id) : e.readingsOf id now t = [now] := by
  unfold readingsOf readsClock
  rw [h, beq_self_eq_true, Bool.true_or]
  rfl

/-- The request that makes a message reads the clock for it. -/
theorem readingsOf_of_made (ht : t.isRequest = true) {x : Happening}
    (hx : x ∈ Happening.about id (e.happenings now t)) : e.readingsOf id now t = [now] := by
  have hany : (e.happenings now t).any (fun x => x.messageId == id) = true :=
    List.any_eq_true.mpr ⟨x, List.mem_filter.mp hx⟩
  unfold readingsOf readsClock
  rw [ht, hany, Bool.and_self, Bool.or_true]
  rfl

/-- Where nothing happened, there were no moments. -/
theorem Timed.nothing_turn (h : Timed e past id seen readings)
    (hnone : Happening.about id (past ++ e.happenings now t) = []) :
    seen ++ Moment.about id (e.momentsOf now t) = [] := by
  rw [Happening.about_append] at hnone
  obtain ⟨hpast, hturn⟩ := List.append_eq_nil_iff.mp hnone
  rw [h.nothing hpast, about_momentsOf, hturn]
  rfl

/-- A request keeps a message in time, or makes it. -/
theorem Timed.request (h : Timed e past id seen readings) (hsound : Sound e₀ e past)
    (ht : t.isRequest = true) :
    Timed (e.turn now t) (past ++ e.happenings now t) id
      (seen ++ Moment.about id (e.momentsOf now t)) (readings ++ e.readingsOf id now t) := by
  rcases hsound.receives_at (e.turn_receives now ht) id with
    ⟨hagrees, habout⟩ | ⟨d, -, hpast, habout, hat₁⟩
  · -- The request makes nothing under this id: no moment is added, and the message is where it was.
    have hmoments : Moment.about id (e.momentsOf now t) = [] := by
      rw [about_momentsOf, habout]
      rfl
    rw [hmoments, List.append_nil]
    refine ⟨h.onTime, fun now' hnow' v' hat' => ?_, fun hnone => ?_⟩
    · obtain ⟨v, hat, -⟩ := hsound.life id
      obtain rfl := hat'.unique (hat.congr hagrees)
      exact h.holds now' (fun r hr => hnow' r (List.mem_append_left _ hr)) _ hat
    · exact (List.append_eq_nil_iff.mp (h.nothing_turn hnone)).1
  · -- The request makes the message of this id: nothing was seen of it before.
    have hmoments : Moment.about id (e.momentsOf now t) = [.made (d.toMessage id now)] := by
      rw [about_momentsOf, habout]
      rfl
    have hreads : e.readingsOf id now t = [now] :=
      readingsOf_of_made ht (habout ▸ List.mem_singleton_self _)
    refine ⟨?_, fun now' hnow' v' hat' => ?_, h.nothing_turn⟩ <;> rw [hmoments, h.nothing hpast]
    · exact Moment.onTime_made _
    · obtain rfl := hat'.unique hat₁
      refine holds_firstHandle (hnow' now ?_)
      rw [hreads]
      exact List.mem_append_right _ (List.mem_singleton_self _)

/-- A turn that works on a message keeps it in time, if it is no earlier than what was read for the
message before. -/
theorem Timed.work (h : Timed e past id seen readings) (hsound : Sound e₀ e past)
    (ht : t.isRequest = false) (hworks : t.worksOn? = some id)
    (hclock : ∀ r ∈ readings, r ≤ now) (hdue : t.IsDue now) :
    Timed (e.turn now t) (past ++ e.happenings now t) id
      (seen ++ Moment.about id (e.momentsOf now t)) (readings ++ e.readingsOf id now t) := by
  obtain ⟨v, hat, hlife⟩ := hsound.life id
  obtain ⟨v₁, hat₁, hstep⟩ := (turn_moves hsound now ht).step id v hat hlife.fits
  have htimer : ∀ timer, v.handle = some (.timer timer) →
      v₁.handle = some (.timer timer) ∨ timer.due ≤ now := by
    intro timer hv
    -- Only the firing of a timer takes it away, and one that fires is due.
    by_cases hfire : t = .fire timer
    · subst hfire
      exact .inr hdue
    · exact .inl (hat.timer_turn hat₁ hv hfire)
  obtain ⟨hon, hholds⟩ := hstep.onTime h.onTime (h.holds now hclock v hat) htimer
  rw [← hat.stage?_eq, ← about_momentsOf] at hon hholds
  rw [readingsOf_of_worksOn hworks]
  refine ⟨hon, fun now' hnow' v' hat' => ?_, h.nothing_turn⟩
  obtain rfl := hat'.unique hat₁
  exact hholds.mono (hnow' now (List.mem_append_right _ (List.mem_singleton_self _)))

/-- A turn that does not work on a message keeps it in time, whatever the time of the turn is. -/
theorem Timed.rest (h : Timed e past id seen readings) (hsound : Sound e₀ e past)
    (ht : t.isRequest = false) (hworks : t.worksOn? ≠ some id) :
    Timed (e.turn now t) (past ++ e.happenings now t) id
      (seen ++ Moment.about id (e.momentsOf now t)) (readings ++ e.readingsOf id now t) := by
  refine ⟨?_, fun now' hnow' v' hat' => ?_, h.nothing_turn⟩
  · rw [hsound.about_momentsOf_eq_nil ht hworks, List.append_nil]
    exact h.onTime
  · rw [hsound.about_momentsOf_eq_nil ht hworks]
    obtain ⟨v, hat, hlife⟩ := hsound.life id
    -- The step is taken at the time that the position is looked at, not at the time of the turn, as
    -- `now` may be earlier than what was read for the message.
    obtain ⟨v₁, hs, hat₁, hstep, hnone⟩ :=
      hsound.step_at_any_time now now' ht hworks hat hlife.fits
    obtain rfl := hat'.unique hat₁
    have hbefore := h.holds now' (fun r hr => hnow' r (List.mem_append_left _ hr)) v hat
    have htimer : ∀ timer, v.handle = some (.timer timer) →
        v'.handle = some (.timer timer) ∨ timer.due ≤ now' := by
      intro timer hv
      refine .inl (hat.timer_turn hat₁ hv fun hfire => hworks ?_)
      rw [hfire, ← (hat.mem_timers hv).2]
      rfl
    have hholds := (hstep.onTime h.onTime hbefore htimer).2
    rwa [hnone] at hholds

/-- A turn keeps a message in time. -/
theorem Timed.turn (h : Timed e past id seen readings) (hsound : Sound e₀ e past)
    (hclock : (readings ++ e.readingsOf id now t).Pairwise (· ≤ ·)) (hdue : t.IsDue now) :
    Timed (e.turn now t) (past ++ e.happenings now t) id
      (seen ++ Moment.about id (e.momentsOf now t)) (readings ++ e.readingsOf id now t) := by
  cases ht : t.isRequest with
  | true => exact h.request hsound ht
  | false =>
    by_cases hworks : t.worksOn? = some id
    · refine h.work hsound ht hworks (fun r hr => ?_) hdue
      rw [readingsOf_of_worksOn hworks] at hclock
      exact (List.pairwise_append.mp hclock).2.2 r hr now (List.mem_singleton_self _)
    · exact h.rest hsound ht hworks

/-- A run keeps a message in time. -/
theorem Timed.run {turns : List (Instant × Turn)} (h : Timed e past id seen readings)
    (hsound : Sound e₀ e past) (hclock : (readings ++ e.readings id turns).Pairwise (· ≤ ·))
    (hdue : Turn.OnlyDue turns) :
    Timed (e.run turns) (past ++ e.history turns) id (seen ++ Moment.about id (e.moments turns))
      (readings ++ e.readings id turns) := by
  induction turns generalizing e past seen readings with
  | nil =>
    rw [show e.moments [] = [] from rfl, show e.readings id [] = [] from rfl]
    simpa [Engine.run, history, Moment.about] using h
  | cons a rest ih =>
    obtain ⟨now, t⟩ := a
    have hreadings : e.readings id ((now, t) :: rest) =
        e.readingsOf id now t ++ (e.turn now t).readings id rest := rfl
    have hmoments : e.moments ((now, t) :: rest) =
        e.momentsOf now t ++ (e.turn now t).moments rest := rfl
    have hhistory : e.history ((now, t) :: rest) =
        e.happenings now t ++ (e.turn now t).history rest := rfl
    rw [hreadings, ← List.append_assoc] at hclock
    have hturn := h.turn hsound (List.pairwise_append.mp hclock).1 (hdue _ List.mem_cons_self)
    rw [hreadings, hmoments, hhistory, Moment.about_append]
    simp only [← List.append_assoc]
    exact ih hturn (turn_sound hsound now t) hclock fun u hu => hdue u (List.mem_cons_of_mem _ hu)

end Turns

/-- Nothing goes out early in a run whose clock does not go back and whose timers do not fire before
they are due: what is seen of each message goes well with its times, and a message whose id stands
in a lane is scheduled for no later time. -/
theorem run_onTime (registry : Registry) (templates : TemplateStore) (directory : Directory)
    (policy : Policy) (idSupply : IdSupply) {turns : List (Instant × Turn)}
    (hclock : (create registry templates directory policy idSupply).InOrder turns)
    (htimers : Turn.OnlyDue turns) :
    (∀ id, Moment.OnTime
      (Moment.about id ((create registry templates directory policy idSupply).moments turns))) ∧
    ∀ m ∈ ((create registry templates directory policy idSupply).run turns).messages,
      ∀ p, m.id ∈ ((create registry templates directory policy idSupply).run turns).lanes.get p →
      ∀ now,
        (∀ r ∈ (create registry templates directory policy idSupply).readings m.id turns,
          r ≤ now) →
        m.scheduledAt ≤ now := by
  have hstart := create_sound registry templates directory policy idSupply
  have hnowhere := create_at registry templates directory policy idSupply
  generalize create registry templates directory policy idSupply = e₀ at hclock hstart hnowhere ⊢
  -- The invariant holds of the fresh engine, where no id has a position, and so after the run.
  have htimed : ∀ id, Timed (e₀.run turns) ([] ++ e₀.history turns) id
      ([] ++ Moment.about id (e₀.moments turns)) ([] ++ e₀.readings id turns) := by
    intro id
    have hnil : Timed e₀ [] id [] [] := by
      refine ⟨Moment.onTime_nil, fun now _ v hat => ?_, fun _ => rfl⟩
      obtain rfl := hat.unique (hnowhere id)
      exact Position.holds_none _ _ now
    exact hnil.run hstart (hclock id) htimers
  have hsound : Sound e₀ (e₀.run turns) (e₀.history turns) := hstart.run turns
  refine ⟨fun id => (htimed id).onTime, fun m hm p hp now hnow => ?_⟩
  obtain ⟨v, hat, -⟩ := hsound.life m.id
  have hmessage : v.message = some m := hat.message.symm.trans (message?_of_mem hsound.nodup hm)
  have hhandle := hat.handle_of_mem_lane hp
  exact ((htimed m.id).holds now hnow v hat _ hhandle).scheduled m hmessage

/-- A message is taken from its lane and tried, and its call ends at once. -/
def pullAndTry (now : Instant) (id : String) (result : Except DispatchError Receipt) :
    List (Instant × Turn) :=
  [(now, .pull .normal), (now, .claim id), (now, .attempt id), (now, .complete id ⟨result, 0⟩)]

/-- Three alerts at once, of which the third is deferred by an hour. The first message is tried
again five seconds later. -/
def deferredAndRetried : List (Instant × Turn) :=
  List.replicate 3 (.epoch, .offer blaze watch .normal .webhook) ++
    pullAndTry .epoch "m1" (.error (.http "no answer")) ++
    [(⟨5000000000, false⟩, .fire ⟨"m1", .normal, ⟨5000000000, false⟩⟩)] ++
    pullAndTry ⟨5000000000, false⟩ "m1" (.ok .silent) ++
    [(⟨Time.hour, false⟩, .fire ⟨"m3", .normal, ⟨Time.hour, false⟩⟩)] ++
    pullAndTry ⟨Time.hour, false⟩ "m3" (.ok .silent)

/-- The first message has two attempts, and the third has one. -/
theorem deferredAndRetried_onTime :
    (Moment.about "m1" ((create [hook] .withDefaults [] deferring).moments
      deferredAndRetried)).filterMap Moment.startsAt? = [.epoch, ⟨5000000000, false⟩] ∧
    (Moment.about "m3" ((create [hook] .withDefaults [] deferring).moments
      deferredAndRetried)).filterMap Moment.startsAt? = [⟨Time.hour, false⟩] ∧
    Moment.OnTime (Moment.about "m3" ((create [hook] .withDefaults [] deferring).moments
      deferredAndRetried)) := by
  have hclock : (create [hook] .withDefaults [] deferring).InOrder deferredAndRetried :=
    inOrder_of_pairwise _ (by decide +kernel)
  have htimers : Turn.OnlyDue deferredAndRetried := by decide +kernel
  refine ⟨by decide +kernel, by decide +kernel, ?_⟩
  exact (run_onTime [hook] .withDefaults [] deferring .numbered hclock htimers).1 "m3"

end Engine

end Klaxon
