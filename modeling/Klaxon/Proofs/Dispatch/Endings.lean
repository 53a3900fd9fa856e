import Klaxon.Proofs.Dispatch.Moments

/-!
# How messages end

A message is over when it is cancelled or when the record of an attempt leaves it delivered or
failed. `Message.Course` is what a step can do with a message (`Step.course`), so that a message
that is over behind a step was over before it, or ended in it (`Message.Course.ends`). It follows
that the last thing that was seen of a message that is over is how it ended (`Life.endedAt`).

A message does not note when it ended, unless it was delivered. Its last update is otherwise the
begin of its last attempt, or its creation if nothing was tried (`Message.lastBegun`). That is not
after its end where the clock does not go back (`Position.Dated`), but it may be long before.
-/

namespace Klaxon

namespace Message

/-- What a step does with a message, from the handle that brings the message on, and what is seen of
the step. -/
inductive Course (m : Message) (now : Instant) :
    Option Handle → List Happening → Message → Prop where
  /-- The message stays as it is. If anything is seen, an attempt at it begins. -/
  | kept {h : Option Handle} {hs : List Happening} (hseen : hs = [] ∨ m.status = .sending) :
      Course m now h hs m
  | claimed {h : Option Handle} (hs : m.status = .queued) :
      Course m now h [] { m with status := .sending }
  | cancelled {h : Option Handle} (hs : m.status = .queued) :
      Course m now h [.cancelled { m with status := .cancelled } now]
        { m with status := .cancelled }
  /-- The attempt that is under way is recorded: the deliverer answered, or the rate limit refused
  the call. -/
  | settled {h : Option Handle} {stage : Stage} {content : Option RenderedContent}
      {spec : ChannelSpec} {report : Report} {m' : Message} {t : Option Timer} {x : Happening}
      (hh : h = some (.flight stage)) (hstage : ¬ Handle.IsIdle (.flight stage))
      (hs : m.status = .sending)
      (hset : (Engine.withNewContent m content).Settles spec
        (Handle.opensAt now (.flight stage)) now report m' t)
      (hx : x = .answered m'.id report ∨
        ∃ claimed, x = .begun claimed ∧
          report.result = .error (.rateLimited m'.channelId)) :
      Course m now h [x, .recorded m' now] m'

/-- The last thing that was seen of a message is that it ended, at a time. -/
def EndedAt (m : Message) (ended : Instant) (past : List Happening) : Prop :=
  past.getLast? = some (.recorded m ended) ∨ past.getLast? = some (.cancelled m ended)

/-- When the last attempt at a message began, or the message was made if there was none. -/
def lastBegun (m : Message) : Instant := (m.lastAttempt?.map Attempt.attemptedAt).getD m.createdAt

/-- A message ended once. -/
theorem EndedAt.unique {m : Message} {t t' : Instant} {past : List Happening}
    (h : m.EndedAt t past) (h' : m.EndedAt t' past) : t = t' := by
  rcases h with h | h <;> rcases h' with h' | h' <;> rw [h] at h'
  · exact (Happening.recorded.inj (Option.some.inj h')).2
  · nomatch Option.some.inj h'
  · nomatch Option.some.inj h'
  · exact (Happening.cancelled.inj (Option.some.inj h')).2

/-- A message that is over behind a step was over before it, or ended in it. -/
theorem Course.ends {m m' : Message} {now : Instant} {h : Option Handle} {hs : List Happening}
    (hc : m.Course now h hs m') (hover : m'.status.isTerminal = true) :
    (m = m' ∧ hs = []) ∨
    ((∀ past, m'.EndedAt now (past ++ hs)) ∧ (m'.status = .delivered → m'.updatedAt = now) ∧
      (m'.status = .failed → ∃ a, m'.lastAttempt? = some a)) := by
  cases hc with
  -- A message that is being sent is not over, so that nothing can have been seen.
  | kept hseen =>
    refine .inl ⟨rfl, hseen.resolve_right fun hsending => ?_⟩
    simp [hsending, Status.isTerminal] at hover
  | claimed => simp [Status.isTerminal] at hover
  | cancelled => exact .inr ⟨fun past => .inr List.getLast?_concat, by simp, by simp⟩
  | settled _ _ _ hset =>
    refine .inr ⟨fun past => .inl ?_, ?_⟩
    · rw [List.append_cons]
      exact List.getLast?_concat
    · cases hset with
      | delivered => exact ⟨fun _ => rfl, by simp⟩
      | retried => simp [Status.isTerminal] at hover
      | failed => exact ⟨by simp, fun _ => ⟨_, List.getLast?_concat⟩⟩

/-- New content leaves the time of delivery as it is. -/
theorem deliveredAt_withNewContent (m : Message) (content : Option RenderedContent) :
    (Engine.withNewContent m content).deliveredAt = m.deliveredAt := by
  cases content <;> rfl

/-- A message without a time of delivery was last updated when its last attempt began. -/
theorem updatedAt_eq_lastBegun {m : Message} (h : m.deliveredAt = none) :
    m.updatedAt = m.lastBegun := by
  unfold updatedAt lastBegun
  rw [h]
  rfl

/-- Behind a new attempt, the last one began when it did. -/
theorem lastBegun_of_attempts {m : Message} {attempts : List Attempt} {a : Attempt}
    (h : m.attempts = attempts ++ [a]) : m.lastBegun = a.attemptedAt := by
  unfold lastBegun lastAttempt?
  rw [h, List.getLast?_concat]
  rfl

/-- The last attempt at a message that was just tried is the one that is recorded. -/
theorem Settles.lastBegun_eq {spec : ChannelSpec} {attemptedAt now : Instant} {report : Report}
    {m m' : Message} {t : Option Timer} (h : m.Settles spec attemptedAt now report m' t) :
    m'.lastBegun = attemptedAt := by
  obtain ⟨a, hfollows, hattempts⟩ := h.attempts
  calc m'.lastBegun = a.attemptedAt := lastBegun_of_attempts hattempts
    _ = attemptedAt := hfollows.attemptedAt

end Message

/-! ## Steps -/

variable {e₀ : Engine} {id : String} {now : Instant} {past hs : List Happening} {v v' : Position}

/-- Every step takes a message on its course. -/
theorem Step.course (h : Step e₀ id now v hs v') (hv : v.Fits e₀ id) {m' : Message}
    (hm : v'.message = some m') : ∃ m, v.message = some m ∧ m.Course now v.handle hs m' := by
  cases h with
  | stay => exact ⟨m', hm, .kept (.inl rfl)⟩
  | cancelled hq =>
    obtain rfl := Option.some.inj hm
    exact ⟨_, rfl, .cancelled hq⟩
  | forgotten => simp at hm
  | pulled => exact ⟨m', hm, .kept (.inl rfl)⟩
  | skipped => exact ⟨m', hm, .kept (.inl rfl)⟩
  | claimed hq =>
    obtain rfl := Option.some.inj hm
    exact ⟨_, rfl, .claimed hq⟩
  | called =>
    -- Only a message that is being sent has a flight that was claimed.
    obtain rfl := Option.some.inj hm
    exact ⟨_, rfl, .kept (.inr (hv.shape.sending (by simp)))⟩
  | @refused before _ _ _ _ rendered _ _ _ hset =>
    obtain rfl := Option.some.inj hm
    have hsame := (before.sameOrigin_withNewContent rendered).trans hset.sameOrigin
    refine ⟨before, rfl, .settled rfl (fun h => h) (hv.shape.sending (by simp)) hset
      (.inr ⟨before, rfl, ?_⟩)⟩
    rw [hsame.channelId]
  | @completed before after call _ _ _ _ hset =>
    obtain rfl : after = m' := Option.some.inj hm
    have hsame := (before.sameOrigin_withNewContent call.rendered).trans hset.sameOrigin
    have hid : after.id = id := hsame.id.trans (hv.stored before rfl).1
    refine ⟨before, rfl, .settled rfl (fun h => h) (hv.shape.sending (by simp)) hset (.inl ?_)⟩
    rw [hid]
  | fired => exact ⟨m', hm, .kept (.inl rfl)⟩
  | dropped => exact ⟨m', hm, .kept (.inl rfl)⟩

/-- A message that is not delivered has no time of delivery. -/
theorem Life.deliveredAt (h : Life e₀ id past v) {m : Message} (hm : v.message = some m)
    (hs : m.status ≠ .delivered) : m.deliveredAt = none := by
  induction h generalizing m with
  | nowhere => simp at hm
  | made _ hnew =>
    obtain rfl := Option.some.inj hm
    exact hnew.deliveredAt
  | step hl h ih =>
    obtain ⟨before, hbefore, hcourse⟩ := h.course hl.fits hm
    cases hcourse with
    | kept => exact ih hbefore hs
    | claimed hq => exact ih (m := before) hbefore (by simp [hq])
    | cancelled hq => exact ih (m := before) hbefore (by simp [hq])
    -- Only a success sets the time, and it leaves the message delivered.
    | settled _ _ hsending hset =>
      have hnone := ih hbefore (by simp [hsending])
      cases hset with
      | delivered => exact absurd rfl hs
      | retried => exact (before.deliveredAt_withNewContent _).trans hnone
      | failed => exact (before.deliveredAt_withNewContent _).trans hnone

/-- A message that is over ended. If it was delivered it notes that time, and if it failed it was
tried. -/
theorem Life.endedAt (h : Life e₀ id past v) {m : Message} (hm : v.message = some m)
    (hover : m.status.isTerminal = true) :
    ∃ ended, m.EndedAt ended past ∧ (m.status = .delivered → m.updatedAt = ended) ∧
      (m.status = .failed → ∃ a, m.lastAttempt? = some a) := by
  induction h with
  | nowhere => simp at hm
  | made _ hnew =>
    obtain rfl := Option.some.inj hm
    simp [hnew.status, Status.isTerminal] at hover
  | @step past seen v v' now hl h ih =>
    obtain ⟨before, hbefore, hcourse⟩ := h.course hl.fits hm
    rcases hcourse.ends hover with ⟨rfl, rfl⟩ | ⟨hended, hnoted⟩
    · rw [List.append_nil]
      exact ih hbefore
    · exact ⟨now, hended past, hnoted⟩

/-! ## The clock -/

/-- What is noted of a message and of its delivery is past, and the message did not end before its
last attempt began. -/
structure Position.Dated (v : Position) (past : List Happening) (now : Instant) : Prop where
  begun : ∀ m, v.message = some m → m.lastBegun ≤ now
  started : ∀ h, v.handle = some h → ¬ h.IsIdle → h.opensAt now ≤ now
  ended : ∀ m, v.message = some m → m.status.isTerminal = true →
    ∀ ended, m.EndedAt ended past → m.lastBegun ≤ ended

/-- Nothing is noted where there is neither a message nor a handle. -/
theorem Position.dated_nowhere (past : List Happening) (now : Instant) :
    Position.Dated ⟨none, none⟩ past now :=
  ⟨fun m hm => by simp at hm, fun x hx => by simp at hx, fun m hm => by simp at hm⟩

/-- Time goes on. -/
theorem Position.Dated.mono {now' : Instant} (h : v.Dated past now) (hnow : now ≤ now') :
    v.Dated past now' where
  begun m hm := Int.le_trans (h.begun m hm) hnow
  started x hx hidle := Handle.opensAt_le_mono (h.started x hx hidle) hidle hnow
  ended := h.ended

/-- A step notes its own time at most. -/
theorem Step.begun (h : Step e₀ id now v hs v') (hfits : v.Fits e₀ id) (hv : v.Dated past now)
    {m : Message} (hm : v'.message = some m) : m.lastBegun ≤ now := by
  obtain ⟨before, hbefore, hcourse⟩ := h.course hfits hm
  have hbegun := hv.begun before hbefore
  cases hcourse with
  | kept => exact hbegun
  | claimed => exact hbegun
  | cancelled => exact hbegun
  | settled hhandle hstage _ hset =>
    rw [hset.lastBegun_eq]
    exact hv.started _ hhandle hstage

/-- What is under way behind a step began. -/
theorem Step.started (h : Step e₀ id now v hs v') (hv : v.Dated past now) {x : Handle}
    (hx : v'.handle = some x) (hidle : ¬ x.IsIdle) : x.opensAt now ≤ now := by
  -- What an attempt leaves behind is a timer or nothing, and a timer is idle.
  have htimer {t : Option Timer} (hx : t.map Handle.timer = some x) : x.IsIdle := by
    obtain ⟨_, -, rfl⟩ := Option.map_eq_some_iff.mp hx
    trivial
  cases h with
  | stay => exact hv.started x hx hidle
  | cancelled => exact hv.started x hx hidle
  | forgotten => exact hv.started x hx hidle
  | pulled =>
    obtain rfl := Option.some.inj hx
    exact absurd trivial hidle
  | skipped => simp at hx
  | claimed =>
    obtain rfl := Option.some.inj hx
    exact Int.le_refl _
  | called hc =>
    obtain rfl := Option.some.inj hx
    have hbegun := hv.started _ rfl fun h => h
    rw [Handle.opensAt, hc.attemptedAt]
    exact hbegun
  | refused => exact absurd (htimer hx) hidle
  | completed => exact absurd (htimer hx) hidle
  | fired =>
    obtain rfl := Option.some.inj hx
    exact absurd trivial hidle
  | dropped => simp at hx

/-- A step that does not go back in time keeps what is noted past. -/
theorem Step.dated (h : Step e₀ id now v hs v') (hfits : v.Fits e₀ id) (hv : v.Dated past now) :
    v'.Dated (past ++ hs) now where
  begun _ hm := h.begun hfits hv hm
  started _ hx hidle := h.started hv hx hidle
  ended m hm hover ended hended := by
    obtain ⟨before, hbefore, hcourse⟩ := h.course hfits hm
    -- The end is an old one, or it is this step, whose time is `now`.
    rcases hcourse.ends hover with ⟨rfl, rfl⟩ | ⟨hends, -⟩
    · rw [List.append_nil] at hended
      exact hv.ended before hbefore hover ended hended
    · obtain rfl := (hends past).unique hended
      exact h.begun hfits hv hm

namespace Engine

variable {e : Engine}

/-- A request that makes a message notes its own time. -/
theorem dated_first (d : Draft) (id : String) (past : List Happening) (now : Instant) :
    Position.Dated ⟨some (d.toMessage id now), some (firstHandle d id now)⟩ past now where
  begun m hm := by
    obtain rfl := Option.some.inj hm
    exact Int.le_refl _
  started x hx hidle := by
    obtain rfl := Option.some.inj hx
    exact absurd (firstHandle_isIdle d id now) hidle
  ended m hm hover := by
    obtain rfl := Option.some.inj hm
    simp [Draft.toMessage, Status.isTerminal] at hover

/-- What is noted of all messages is past. -/
def Dated (e : Engine) (past : List Happening) (now : Instant) : Prop :=
  ∀ id v, e.At id v → v.Dated (Happening.about id past) now

/-- A turn that does not go back in time keeps what is noted past. -/
theorem Dated.turn {earlier : Instant} (h : e.Dated past earlier) (hsound : Sound e₀ e past)
    (hnow : earlier ≤ now) (t : Turn) :
    (e.turn now t).Dated (past ++ e.happenings now t) now := by
  intro id v' hat'
  obtain ⟨v, hat, hlife⟩ := hsound.life id
  have hdated := (h id v hat).mono hnow
  rw [Happening.about_append]
  cases ht : t.isRequest with
  | true =>
    -- A request makes a message of its own or leaves the id as it is.
    rcases hsound.receives_at (e.turn_receives now ht) id with
      ⟨hagrees, habout⟩ | ⟨d, -, -, -, hmade⟩
    · obtain rfl := hat'.unique (hat.congr hagrees)
      rw [habout, List.append_nil]
      exact hdated
    · obtain rfl := hat'.unique hmade
      exact dated_first d id _ now
  | false =>
    obtain ⟨u, hu, hstep⟩ := (turn_moves hsound now ht).step id v hat hlife.fits
    obtain rfl := hat'.unique hu
    exact hstep.dated hlife.fits hdated

/-- A run whose clock does not go back keeps what is noted past. -/
theorem Dated.run {turns : List (Instant × Turn)} (h : e.Dated past now)
    (hsound : Sound e₀ e past) (hafter : ∀ t ∈ turns, now ≤ t.1)
    (hclock : (turns.map Prod.fst).Pairwise (· ≤ ·)) :
    ∃ now', (e.run turns).Dated (past ++ e.history turns) now' := by
  induction turns generalizing e past now with
  | nil =>
    refine ⟨now, ?_⟩
    rw [show e.history [] = [] from rfl, List.append_nil]
    exact h
  | cons t rest ih =>
    obtain ⟨hfirst, hrest⟩ := List.pairwise_cons.mp hclock
    have hturn := h.turn hsound (hafter t List.mem_cons_self) t.2
    have hnext := ih hturn (turn_sound hsound t.1 t.2)
      (fun u hu => hfirst u.1 (List.mem_map_of_mem hu)) hrest
    rw [List.append_assoc] at hnext
    exact hnext

/-- Where the clock does not go back, no message ended before its last attempt began. -/
theorem run_lastBegun_le (registry : Registry) (templates : TemplateStore) (directory : Directory)
    (policy : Policy) (idSupply : IdSupply) {turns : List (Instant × Turn)}
    (hclock : (turns.map Prod.fst).Pairwise (· ≤ ·)) {id : String} {m : Message}
    (hm : ((create registry templates directory policy idSupply).run turns).message? id = some m)
    (hover : m.status.isTerminal = true) {ended : Instant}
    (hended : m.EndedAt ended (Happening.about id
      ((create registry templates directory policy idSupply).history turns))) :
    m.lastBegun ≤ ended := by
  have hstart := create_sound registry templates directory policy idSupply
  have hnowhere := create_at registry templates directory policy idSupply
  generalize create registry templates directory policy idSupply = e₀ at *
  obtain ⟨v, hat, -⟩ := (hstart.run turns).life id
  have hmessage : v.message = some m := hat.message.symm.trans hm
  have hdated (now : Instant) : e₀.Dated [] now := fun id v hat => by
    obtain rfl := hat.unique (hnowhere id)
    exact Position.dated_nowhere _ now
  cases turns with
  | nil =>
    obtain rfl := hat.unique (hnowhere id)
    simp at hmessage
  | cons t rest =>
    have hfirst := (List.pairwise_cons.mp hclock).1
    have hafter : ∀ u ∈ t :: rest, t.1 ≤ u.1 := by
      intro u hu
      rcases List.mem_cons.mp hu with rfl | hu
      · exact Int.le_refl _
      · exact hfirst u.1 (List.mem_map_of_mem hu)
    -- The times that are noted are compared with the first turn's on an engine without messages.
    obtain ⟨now, hrun⟩ := (hdated t.1).run hstart hafter hclock
    exact (hrun id v hat).ended m hmessage hover ended hended

end Engine

end Klaxon
