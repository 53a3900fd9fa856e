import Klaxon.Proofs.Dispatch.AttemptLog

/-!
# Messages in time

A message is made for a time, and it is to wait again behind an attempt that is to be retried. A
`Moment` is what is seen of a message with the times that count: when its next attempt may begin
(`Moment.opensAt?`), and when an attempt began. `Moment.OnTime` says that no attempt begins too
early.

The handle of a message carries the times on: it does not let an attempt begin before
`Handle.opensAt`, which no moment that was seen is later than (`Handle.Holds`). `Step.onTime` says
that a step keeps both, if a timer that fires is due.
-/

namespace Klaxon

/-- What is seen of a message, with the times that count. -/
inductive Moment where
  | made (m : Message)
  /-- An attempt begins. The message is given as it was claimed, and the time of the claim. -/
  | begun (m : Message) (attemptedAt : Instant)
  | recorded (m : Message) (now : Instant)

namespace Moment

/-- The id of the message that the moment belongs to. -/
def messageId : Moment → String
  | .made m | .begun m _ | .recorded m _ => m.id

/-- What was seen of one message. -/
def about (id : String) (ms : List Moment) : List Moment := ms.filter fun x => x.messageId == id

/-- What was seen of one message is a part of what was seen, stretch by stretch. -/
theorem about_append (id : String) (ms ms' : List Moment) :
    about id (ms ++ ms') = about id ms ++ about id ms' :=
  List.filter_append ms ms'

/-- The time from which the next attempt may begin: that of the slot for a new message, and the end
of the delay for one whose attempt is to be retried. -/
def opensAt? : Moment → Option Instant
  | .made m => some m.scheduledAt
  | .begun .. => none
  | .recorded m now =>
    (m.lastAttempt?.bind Attempt.retryDelayMs).map fun delayMs =>
      now.add (delayMs.toNat * Time.millisecond)

/-- The time of an attempt that begins. -/
def startsAt? : Moment → Option Instant
  | .begun _ attemptedAt => some attemptedAt
  | _ => none

/-- An attempt that begins at a moment does not begin before another moment lets it. -/
def Allows (x y : Moment) : Prop :=
  ∀ opens starts, x.opensAt? = some opens → y.startsAt? = some starts → opens ≤ starts

/-- What is seen of one message goes well with its times. -/
structure OnTime (ms : List Moment) : Prop where
  /-- No attempt begins before the time that its message is scheduled for then. -/
  scheduled : ∀ m attemptedAt, .begun m attemptedAt ∈ ms → m.scheduledAt ≤ attemptedAt
  /-- No attempt begins before the slot of its message, or before the delay behind an earlier
  attempt is over. -/
  waits : ms.Pairwise Allows
  /-- The attempt that is recorded is one that began, at the time that is recorded. -/
  logged : ∀ m now, .recorded m now ∈ ms → ∃ before a, .begun before a.attemptedAt ∈ ms ∧
    m.attempts = before.attempts ++ [a]

/-- Nothing was seen. -/
theorem onTime_nil : OnTime [] :=
  ⟨fun _ _ h => by simp at h, .nil, fun _ _ h => by simp at h⟩

/-- A message is made. -/
theorem onTime_made (m : Message) : OnTime [.made m] :=
  ⟨fun _ _ h => by simp at h, List.pairwise_singleton _ _, fun _ _ h => by simp at h⟩

/-- An attempt begins when all that was seen lets it. -/
theorem OnTime.begin {ms : List Moment} (h : OnTime ms) {m : Message} {attemptedAt : Instant}
    (hs : m.scheduledAt ≤ attemptedAt)
    (hopen : ∀ x ∈ ms, ∀ opens, x.opensAt? = some opens → opens ≤ attemptedAt) :
    OnTime (ms ++ [.begun m attemptedAt]) where
  scheduled m' t hm := by
    rcases List.mem_append.mp hm with hm | hm
    · exact h.scheduled m' t hm
    · obtain ⟨rfl, rfl⟩ := Moment.begun.inj (List.mem_singleton.mp hm)
      exact hs
  waits := by
    refine List.pairwise_append.mpr ⟨h.waits, List.pairwise_singleton _ _, ?_⟩
    intro x hx y hy opens starts hopens hstarts
    obtain rfl := List.mem_singleton.mp hy
    obtain rfl : attemptedAt = starts := Option.some.inj hstarts
    exact hopen x hx opens hopens
  logged m' now hm := by
    rcases List.mem_append.mp hm with hm | hm
    · obtain ⟨before, a, hbegun, ha⟩ := h.logged m' now hm
      exact ⟨before, a, List.mem_append_left _ hbegun, ha⟩
    · simp at hm

/-- An attempt that began is recorded. -/
theorem OnTime.record {ms : List Moment} (h : OnTime ms) {m before : Message} {a : Attempt}
    (hbegun : .begun before a.attemptedAt ∈ ms) (ha : m.attempts = before.attempts ++ [a])
    (now : Instant) : OnTime (ms ++ [.recorded m now]) where
  scheduled m' t hm := by
    rcases List.mem_append.mp hm with hm | hm
    · exact h.scheduled m' t hm
    · simp at hm
  waits := by
    refine List.pairwise_append.mpr ⟨h.waits, List.pairwise_singleton _ _, ?_⟩
    intro x _ y hy opens starts _ hstarts
    obtain rfl := List.mem_singleton.mp hy
    simp [startsAt?] at hstarts
  logged m' now' hm := by
    rcases List.mem_append.mp hm with hm | hm
    · obtain ⟨before, a, hbegun, ha⟩ := h.logged m' now' hm
      exact ⟨before, a, List.mem_append_left _ hbegun, ha⟩
    · obtain ⟨rfl, rfl⟩ := Moment.recorded.inj (List.mem_singleton.mp hm)
      exact ⟨before, a, List.mem_append_left _ hbegun, ha⟩

end Moment

/-- A happening as a moment, where the message is at a stage. -/
def Happening.moment? (s : Option Stage) : Happening → Option Moment
  | .made m => some (.made m)
  | .begun m =>
    match s with
    | some (.claimed _ attemptedAt) => some (.begun m attemptedAt)
    | _ => none
  | .recorded m now => some (.recorded m now)
  | _ => none

/-- A moment is of the message of its happening. -/
theorem Happening.messageId_of_moment? {s : Option Stage} {x : Happening} {y : Moment}
    (h : x.moment? s = some y) : y.messageId = x.messageId := by
  cases x with
  | made m => exact Option.some.inj h ▸ rfl
  | begun m =>
    simp only [moment?] at h
    split at h
    · exact Option.some.inj h ▸ rfl
    · simp at h
  | recorded m now => exact Option.some.inj h ▸ rfl
  | _ => simp [moment?] at h

/-! ## Handles -/

/-- The time before which a handle lets no attempt begin, or at which the attempt began. -/
def Handle.opensAt (now : Instant) : Handle → Instant
  | .timer t => t.due
  | .flight (.claimed _ attemptedAt) => attemptedAt
  | .flight (.calling call) => call.attemptedAt
  | .lane _ | .flight .pulled => now

/-- A handle lets no attempt begin too early, and an attempt that began did not begin too early. -/
structure Handle.Holds (h : Handle) (message : Option Message) (seen : List Moment)
    (now : Instant) : Prop where
  scheduled : ∀ m, message = some m → m.scheduledAt ≤ h.opensAt now
  opened : ∀ x ∈ seen, ∀ opens, x.opensAt? = some opens → opens ≤ h.opensAt now
  started : ¬ h.IsIdle → h.opensAt now ≤ now
  calling : ∀ call m, h = .flight (.calling call) → message = some m →
    ∃ before, Moment.begun before call.attemptedAt ∈ seen ∧ before.attempts = m.attempts

/-- What began before a time began before all later times. -/
theorem Handle.opensAt_le_mono {h : Handle} {now now' : Instant} (hh : h.opensAt now ≤ now)
    (hidle : ¬ h.IsIdle) (hnow : now ≤ now') : h.opensAt now' ≤ now' := by
  rcases h with p | t | s | s | s
  · exact absurd trivial hidle
  · exact absurd trivial hidle
  · exact absurd trivial hidle
  · exact Int.le_trans hh hnow
  · exact Int.le_trans hh hnow

/-- The handle of a position holds its message. -/
def Position.Holds (v : Position) (seen : List Moment) (now : Instant) : Prop :=
  ∀ h, v.handle = some h → h.Holds v.message seen now

/-- Without a handle there is nothing to hold. -/
theorem Position.holds_none (message : Option Message) (seen : List Moment) (now : Instant) :
    Position.Holds ⟨message, none⟩ seen now := fun h hh => by simp at hh

/-- Time goes on. -/
theorem Position.Holds.mono {v : Position} {seen : List Moment} {now now' : Instant}
    (hv : v.Holds seen now) (hnow : now ≤ now') : v.Holds seen now' := by
  intro h hh
  have hh := hv h hh
  -- A handle that moves with the clock only opens later; the others have a time of their own.
  have hopens : h.opensAt now ≤ h.opensAt now' := by
    rcases h with p | t | s | s | s
    · exact hnow
    · exact Int.le_refl _
    · exact hnow
    · exact Int.le_refl _
    · exact Int.le_refl _
  have hbegun : ¬ h.IsIdle → h.opensAt now' ≤ now' := fun hidle =>
    Handle.opensAt_le_mono (hh.started hidle) hidle hnow
  exact ⟨fun m hm => Int.le_trans (hh.scheduled m hm) hopens,
    fun x hx opens ho => Int.le_trans (hh.opened x hx opens ho) hopens, hbegun, hh.calling⟩

/-- A handle is exchanged for one that lets nothing begin earlier. -/
theorem Position.Holds.exchange {message : Option Message} {h h' : Handle} {seen : List Moment}
    {now : Instant} (hv : Position.Holds ⟨message, some h⟩ seen now) (hidle : h'.IsIdle)
    (hle : h.opensAt now ≤ h'.opensAt now) : Position.Holds ⟨message, some h'⟩ seen now := by
  intro x hx
  obtain rfl : h' = x := Option.some.inj hx
  obtain ⟨hscheduled, hopened, -, -⟩ := hv h rfl
  refine ⟨fun m hm => Int.le_trans (hscheduled m hm) hle,
    fun x hx opens ho => Int.le_trans (hopened x hx opens ho) hle, absurd hidle, ?_⟩
  rintro call m rfl
  exact hidle.elim

namespace Message.Settles

variable {spec : ChannelSpec} {attemptedAt now : Instant} {report : Report} {m m' : Message}

/-- The timer of a retry is due when the delay is over, and the message is scheduled for no later
time. -/
theorem due_eq {t : Timer} (h : m.Settles spec attemptedAt now report m' (some t)) :
    now ≤ t.due ∧ m'.scheduledAt ≤ t.due ∧ (Moment.recorded m' now).opensAt? = some t.due := by
  cases h with
  | @retried _ a _ _ _ hd =>
    have hdelay : 0 ≤ ((spec.retryPolicy.delayFor a.number).toNat : Int) * Time.millisecond :=
      Int.mul_nonneg (Int.natCast_nonneg _) (by decide)
    refine ⟨?_, ?_, ?_⟩
    · simp only [Instant.le_def, Instant.nanos_add]
      omega
    · unfold Engine.retryAt
      simp only
      split
      · exact Int.le_refl _
      · next h => exact Int.le_of_lt (Int.not_le.mp h)
    · simp [Moment.opensAt?, Message.lastAttempt?, hd]

end Message.Settles

/-! ## Steps -/

/-- The stage of the work on the message of a position. -/
def Position.stage? (v : Position) : Option Stage :=
  match v.handle with
  | some (.flight s) => some s
  | _ => none

/-- The stage of an id is that of its position. -/
theorem Engine.At.stage?_eq {e : Engine} {id : String} {v : Position} (h : e.At id v) :
    e.stage? id = v.stage? := h.stage?

/-- The record of an attempt goes well with what was seen, and so does the timer that it sets. -/
theorem Message.Settles.onTime {spec : ChannelSpec} {attemptedAt now : Instant}
    {report : Report} {m m' before : Message} {content : Option RenderedContent}
    {t : Option Timer} {seen : List Moment}
    (h : (Engine.withNewContent m content).Settles spec attemptedAt now report m' t)
    (hseen : Moment.OnTime seen) (hbegun : .begun before attemptedAt ∈ seen)
    (hlog : before.attempts = m.attempts) (hnow : attemptedAt ≤ now)
    (hopened : ∀ x ∈ seen, ∀ opens, x.opensAt? = some opens → opens ≤ attemptedAt) :
    Moment.OnTime (seen ++ [.recorded m' now]) ∧
      Position.Holds ⟨some m', t.map .timer⟩ (seen ++ [.recorded m' now]) now := by
  obtain ⟨a, hfollows, ha⟩ := h.attempts
  rw [attempts_withNewContent, ← hlog] at ha
  rw [← hfollows.attemptedAt] at hbegun
  refine ⟨hseen.record hbegun ha now, ?_⟩
  cases t with
  | none => exact Position.holds_none _ _ now
  | some t =>
    -- The timer of a retry holds the message back until the delay is over.
    obtain ⟨hdue, hscheduled, hopens⟩ := h.due_eq
    intro handle hhandle
    obtain rfl : Handle.timer t = handle := Option.some.inj hhandle
    refine ⟨fun m hm => ?_, fun x hx opens ho => ?_, fun hidle => absurd trivial hidle,
      fun call m hcall => by simp at hcall⟩
    · obtain rfl : m' = m := Option.some.inj hm
      exact hscheduled
    · rcases List.mem_append.mp hx with hx | hx
      · exact Int.le_trans (hopened x hx opens ho) (Int.le_trans hnow hdue)
      · obtain rfl := List.mem_singleton.mp hx
        rw [hopens] at ho
        obtain rfl := Option.some.inj ho
        exact Int.le_refl _

/-- A step goes well with what was seen, if a timer that fires is due. -/
theorem Step.onTime {e₀ : Engine} {id : String} {now : Instant} {hs : List Happening}
    {v v' : Position} (h : Step e₀ id now v hs v') {seen : List Moment}
    (hseen : Moment.OnTime seen) (hv : v.Holds seen now)
    (htimer : ∀ t, v.handle = some (.timer t) → v'.handle = some (.timer t) ∨ t.due ≤ now) :
    Moment.OnTime (seen ++ hs.filterMap (Happening.moment? v.stage?)) ∧
      v'.Holds (seen ++ hs.filterMap (Happening.moment? v.stage?)) now := by
  -- The steps that show no moment keep what was seen, and most keep the time of the handle.
  have hkeep : ∀ {u : Position}, u.Holds seen now →
      Moment.OnTime (seen ++ []) ∧ u.Holds (seen ++ []) now := fun hu => by
    rw [List.append_nil]
    exact ⟨hseen, hu⟩
  cases h with
  | stay => exact hkeep hv
  | @cancelled m =>
    refine hkeep fun x hx => ?_
    obtain ⟨hscheduled, hopened, hstarted, hcalling⟩ := hv x hx
    refine ⟨fun m' hm => ?_, hopened, hstarted, fun call m' hcall hm => ?_⟩
    · obtain rfl := Option.some.inj hm
      exact hscheduled m rfl
    · obtain rfl := Option.some.inj hm
      exact hcalling call m hcall rfl
  | forgotten =>
    refine hkeep fun x hx => ?_
    obtain ⟨-, hopened, hstarted, -⟩ := hv x hx
    exact ⟨fun m hm => by simp at hm, hopened, hstarted, fun call m _ hm => by simp at hm⟩
  | pulled => exact hkeep (hv.exchange trivial (Int.le_refl _))
  | skipped => exact hkeep (Position.holds_none _ _ now)
  | @claimed m =>
    -- The attempt may begin now, and the handle before it did not open later.
    refine hkeep fun x hx => ?_
    obtain rfl := Option.some.inj hx
    obtain ⟨hscheduled, hopened, -, -⟩ := hv _ rfl
    refine ⟨fun m' hm => ?_, hopened, fun _ => Int.le_refl _, fun call m hcall => by simp at hcall⟩
    obtain rfl := Option.some.inj hm
    exact hscheduled m rfl
  | @called m attemptedAt call hc =>
    obtain ⟨hscheduled, hopened, hstarted, -⟩ := hv _ rfl
    refine ⟨hseen.begin (hscheduled m rfl) hopened, fun x hx => ?_⟩
    obtain rfl := Option.some.inj hx
    -- The call keeps the time of the claim, so that the handle opens where it did.
    have hsame : Handle.opensAt now (.flight (.calling call)) = attemptedAt := hc.attemptedAt
    refine ⟨fun m' hm => ?_, fun x hx opens ho => ?_, fun _ => ?_, fun call' m' hcall hm => ?_⟩
    · obtain rfl := Option.some.inj hm
      rw [hsame]
      exact hscheduled m rfl
    · rw [hsame]
      rcases List.mem_append.mp hx with hx | hx
      · exact hopened x hx opens ho
      · obtain rfl := List.mem_singleton.mp hx
        simp [Moment.opensAt?] at ho
    · rw [hsame]
      exact hstarted fun h => h
    · obtain rfl : call = call' := by simpa using hcall
      obtain rfl := Option.some.inj hm
      rw [hc.attemptedAt]
      exact ⟨m, List.mem_append_right _ (List.mem_singleton_self _), rfl⟩
  | @refused m m' attemptedAt _ _ _ _ _ _ hset =>
    obtain ⟨hscheduled, hopened, hstarted, -⟩ := hv _ rfl
    -- The attempt begins and is recorded in one step; the record follows the begin.
    have hbegin := hseen.begin (hscheduled m rfl) hopened
    have hsplit : ∀ seen : List Moment, seen ++ [.begun m attemptedAt, .recorded m' now] =
        (seen ++ [.begun m attemptedAt]) ++ [.recorded m' now] := fun seen => by simp
    show Moment.OnTime (seen ++ [.begun m attemptedAt, .recorded m' now]) ∧
      Position.Holds _ (seen ++ [.begun m attemptedAt, .recorded m' now]) now
    rw [hsplit]
    refine hset.onTime hbegin (List.mem_append_right _ (List.mem_singleton_self _)) rfl
      (hstarted fun h => h) fun x hx opens ho => ?_
    rcases List.mem_append.mp hx with hx | hx
    · exact hopened x hx opens ho
    · obtain rfl := List.mem_singleton.mp hx
      simp [Moment.opensAt?] at ho
  | completed _ hset =>
    obtain ⟨-, hopened, hstarted, hcalling⟩ := hv _ rfl
    obtain ⟨before, hbegun, hlog⟩ := hcalling _ _ rfl rfl
    exact hset.onTime hseen hbegun hlog (hstarted fun h => h) hopened
  | @fired m t =>
    have hdue : t.due ≤ now := (htimer t rfl).resolve_left fun h => by simp at h
    exact hkeep (hv.exchange trivial hdue)
  | dropped => exact hkeep (Position.holds_none _ _ now)

end Klaxon
