import Klaxon.Proofs.Dispatch.Handles

/-!
# Every delivery is recorded once, and nothing is delivered after the end

Between the claim of a message and the record of its attempt anything else may be asked of the
engine. `run_deliversOnce` says that none of it touches the message: when the attempt ends, the
message is still stored and being sent, so that the outcome is recorded, and it is recorded with
that message only. Over a whole run the deliverer takes a message once at most, and when a message
is over nothing happens to it any more (`Step.of_over`).
-/

namespace Klaxon

namespace Happening

/-- The deliverer is called. -/
def isCall : Happening → Bool
  | .called .. => true
  | _ => false

/-- The deliverer answers. -/
def isAnswer : Happening → Bool
  | .answered .. => true
  | _ => false

/-- The deliverer takes the message. -/
def isAcceptance : Happening → Bool
  | .answered _ report => report.result.isOk
  | _ => false

/-- An attempt is recorded. -/
def isRecord : Happening → Bool
  | .recorded .. => true
  | _ => false

/-- The message is over. -/
def isEnd : Happening → Bool
  | .recorded m _ => m.status.isTerminal
  | .cancelled .. => true
  | _ => false

end Happening

/-- A message lets every outcome of an attempt be recorded. -/
def Message.TakesOutcomes (m : Message) : Prop :=
  ∀ (a : Attempt) (now : Instant), (m.recordSuccess a now).isOk = true ∧
    (m.recordRetry a now).isOk = true ∧ (m.recordFailure a).isOk = true

/-- A message that is being sent does, whether or not it has new content. -/
theorem Message.takesOutcomes_of_sending {m : Message} (hs : m.status = .sending)
    (content : Option RenderedContent) :
    (Engine.withNewContent m content).TakesOutcomes := by
  have hs' : (Engine.withNewContent m content).status = .sending := by cases content <;> exact hs
  intro a now
  simp only [recordSuccess, recordRetry, recordFailure, moveTo, hs', Status.allows, if_true]
  exact ⟨rfl, rfl, rfl⟩

/-! ## The end of a message -/

/-- Nothing can happen to a message any more. -/
structure Position.IsOver (v : Position) : Prop where
  message : ∀ m, v.message = some m → m.status.isTerminal = true
  handle : ∀ x, v.handle = some x → x.IsIdle

/-- What is over stays so, and nothing is seen of it. -/
theorem Step.of_over {e₀ : Engine} {id : String} {now : Instant} {hs : List Happening}
    {v v' : Position} (h : Step e₀ id now v hs v') (hv : v.IsOver) : v'.IsOver ∧ hs = [] := by
  -- Every step that does something wants a message that waits or one that is being sent.
  have hterminal : ∀ m : Message, v.message = some m → m.status ≠ .queued := fun m hm hq => by
    have := hv.message m hm
    simp [hq, Status.isTerminal] at this
  cases h with
  | stay => exact ⟨hv, rfl⟩
  | cancelled hq => exact absurd hq (hterminal _ rfl)
  | forgotten => exact ⟨⟨fun m hm => by simp at hm, hv.handle⟩, rfl⟩
  | pulled => exact ⟨⟨hv.message, fun x hx => Option.some.inj hx ▸ trivial⟩, rfl⟩
  | skipped => exact ⟨⟨hv.message, fun x hx => by simp at hx⟩, rfl⟩
  | claimed hq => exact absurd hq (hterminal _ rfl)
  | called => exact (hv.handle _ rfl).elim
  | refused => exact (hv.handle _ rfl).elim
  | completed => exact (hv.handle _ rfl).elim
  | fired hq => exact absurd hq (hterminal _ rfl)
  | dropped => exact ⟨⟨hv.message, fun x hx => by simp at hx⟩, rfl⟩

/-- A message that has ended is over, wherever it is. -/
theorem Position.Shape.isOver {v : Position} (hv : v.Shape) {m : Message}
    (hm : v.message = some m) (hs : m.status.isTerminal = true) : v.IsOver := by
  cases hv with
  | absent => simp at hm
  | queued hq =>
    obtain rfl := Option.some.inj hm
    simp [hq, Status.isTerminal] at hs
  | claimed hq =>
    obtain rfl := Option.some.inj hm
    simp [hq, Status.isTerminal] at hs
  | calling hq =>
    obtain rfl := Option.some.inj hm
    simp [hq, Status.isTerminal] at hs
  | settled =>
    refine ⟨fun m' hm' => ?_, fun x hx => by simp at hx⟩
    exact Option.some.inj (hm.symm.trans hm') ▸ hs
  | cancelled _ hi =>
    refine ⟨fun m' hm' => ?_, hi⟩
    exact Option.some.inj (hm.symm.trans hm') ▸ hs

/-- The step that ends a message leaves it over. -/
theorem Step.isOver_of_isEnd {e₀ : Engine} {id : String} {now : Instant} {hs : List Happening}
    {v v' : Position} (h : Step e₀ id now v hs v') (hv : v.Fits e₀ id) {x : Happening}
    (hx : x ∈ hs) (hend : x.isEnd = true) : v'.IsOver := by
  have hshape := (h.fits hv).shape
  rcases h.seen hx with ⟨m, -, rfl⟩ | ⟨m, hm, rfl⟩ | ⟨m, hm, hc, -⟩ | ⟨_, rfl⟩ | ⟨_, rfl⟩
  · simp [Happening.isEnd] at hend
  · exact hshape.isOver hm hend
  · exact hshape.isOver hm (by rw [hc]; rfl)
  · simp [Happening.isEnd] at hend
  · simp [Happening.isEnd] at hend

/-- An end is the last that is seen of a step. -/
theorem Step.pairwise {e₀ : Engine} {id : String} {now : Instant} {hs : List Happening}
    {v v' : Position} (h : Step e₀ id now v hs v') : hs.Pairwise fun x _ => x.isEnd = false := by
  cases h <;> simp [Happening.isEnd]

/-- The record of an attempt puts it at the end of the log. -/
theorem Message.Settles.attempts {spec : ChannelSpec} {attemptedAt now : Instant}
    {report : Report} {m m' : Message} {t : Option Timer}
    (h : m.Settles spec attemptedAt now report m' t) :
    ∃ a : Attempt, a.Follows m attemptedAt ∧ m'.attempts = m.attempts ++ [a] := by
  cases h with
  | delivered _ ha => exact ⟨_, ha, rfl⟩
  | retried _ ha => exact ⟨_, ha, rfl⟩
  | failed _ ha => exact ⟨_, ha, rfl⟩

/-- New content leaves the log of attempts as it is. -/
theorem attempts_withNewContent (m : Message) (content : Option RenderedContent) :
    (Engine.withNewContent m content).attempts = m.attempts := by
  cases content <;> rfl

/-- A step adds to the log of a message what it records. -/
theorem Step.length_attempts {e₀ : Engine} {id : String} {now : Instant} {hs : List Happening}
    {v v' : Position} (h : Step e₀ id now v hs v') {m' : Message} (hm' : v'.message = some m') :
    ∃ m, v.message = some m ∧
      m'.attempts.length = m.attempts.length + hs.countP Happening.isRecord := by
  -- Both ways to end an attempt, with a call and without one, add one attempt.
  have hadded {m after : Message} {content : Option RenderedContent} {spec : ChannelSpec}
      {attemptedAt : Instant} {report : Report} {t : Option Timer}
      (hset : (Engine.withNewContent m content).Settles spec attemptedAt now report after t) :
      after.attempts.length = m.attempts.length + 1 := by
    obtain ⟨a, -, hattempts⟩ := hset.attempts
    rw [hattempts, attempts_withNewContent, List.length_append, List.length_singleton]
  cases h with
  | stay => exact ⟨m', hm', rfl⟩
  | cancelled =>
    obtain rfl := Option.some.inj hm'
    exact ⟨_, rfl, rfl⟩
  | forgotten => simp at hm'
  | pulled => exact ⟨m', hm', rfl⟩
  | skipped => exact ⟨m', hm', rfl⟩
  | claimed =>
    obtain rfl := Option.some.inj hm'
    exact ⟨_, rfl, rfl⟩
  | called => exact ⟨m', hm', rfl⟩
  | refused _ _ hset =>
    obtain rfl := Option.some.inj hm'
    exact ⟨_, rfl, hadded hset⟩
  | completed _ hset =>
    obtain rfl := Option.some.inj hm'
    exact ⟨_, rfl, hadded hset⟩
  | fired => exact ⟨m', hm', rfl⟩
  | dropped => exact ⟨m', hm', rfl⟩

/-- A message that the deliverer takes is over. -/
theorem Step.countP_isAcceptance {e₀ : Engine} {id : String} {now : Instant}
    {hs : List Happening} {v v' : Position} (h : Step e₀ id now v hs v') :
    hs.countP Happening.isAcceptance = 0 ∨
      hs.countP Happening.isAcceptance = 1 ∧ v'.IsOver := by
  cases h with
  -- Only the end of a call is an answer at all.
  | @completed m m' call spec report t _ hset =>
    cases hr : report.result with
    | error error =>
      left
      simp [Happening.isAcceptance, hr, Except.isOk, Except.toBool]
    | ok receipt =>
      right
      refine ⟨by simp [Happening.isAcceptance, hr, Except.isOk, Except.toBool],
        hset.shape.isOver rfl ?_⟩
      cases hset with
      | delivered => rfl
      | retried hr' => simp [hr] at hr'
      | failed hr' => simp [hr] at hr'
  | _ => exact .inl rfl

/-- The number of calls that a handle is. -/
def Handle.calls : Option Handle → Nat
  | some (.flight (.calling _)) => 1
  | _ => 0

/-- What is idle is no call. -/
theorem Handle.calls_of_isIdle {x : Handle} (h : x.IsIdle) : calls (some x) = 0 := by
  rcases x with _ | _ | _ | _ | _
  · rfl
  · rfl
  · rfl
  · rfl
  · exact h.elim

/-- A call is under way where it is the handle. -/
theorem Engine.At.calls_eq {e : Engine} {id : String} {v : Position} (h : e.At id v) :
    Handle.calls v.handle = if (e.callOf? id).isSome then 1 else 0 := by
  unfold callOf?
  rw [h.stage?]
  rcases v.handle with _ | _ | _ | _ | _ | _ <;> rfl

/-- The calls that a step makes are those that it does not answer. -/
theorem Step.countP_isCall {e₀ : Engine} {id : String} {now : Instant} {hs : List Happening}
    {v v' : Position} (h : Step e₀ id now v hs v') :
    Handle.calls v.handle + hs.countP Happening.isCall =
      hs.countP Happening.isAnswer + Handle.calls v'.handle := by
  cases h with
  | stay => exact Nat.add_comm _ _
  | cancelled => exact Nat.add_comm _ _
  | forgotten => exact Nat.add_comm _ _
  | @refused _ _ _ _ _ _ t => cases t <;> rfl
  | @completed _ _ _ _ _ t => cases t <;> rfl
  | _ => rfl

namespace Life

variable {e₀ : Engine} {id : String} {past : List Happening} {v : Position}

/-- A life in which an end was seen is over. -/
theorem isOver_of_isEnd (h : Life e₀ id past v) {x : Happening} (hx : x ∈ past)
    (hend : x.isEnd = true) : v.IsOver := by
  induction h with
  | nowhere => simp at hx
  | made =>
    rw [List.mem_singleton.mp hx] at hend
    simp [Happening.isEnd] at hend
  | step hl h ih =>
    -- An earlier end makes the position over already, and the step keeps that.
    rcases List.mem_append.mp hx with hx | hx
    · exact (h.of_over (ih hx)).1
    · exact h.isOver_of_isEnd hl.fits hx hend

/-- An end is the last that is seen of a life. -/
theorem pairwise (h : Life e₀ id past v) : past.Pairwise fun x _ => x.isEnd = false := by
  induction h with
  | nowhere => exact .nil
  | made => exact List.pairwise_singleton _ _
  | step hl h ih =>
    rw [List.pairwise_append]
    refine ⟨ih, h.pairwise, fun x hx y hy => ?_⟩
    rw [← Bool.not_eq_true]
    -- Behind an end the position is over, and then the step shows nothing.
    intro hend
    rw [(h.of_over (hl.isOver_of_isEnd hx hend)).2] at hy
    simp at hy

/-- Every call is answered, or under way. -/
theorem countP_isCall (h : Life e₀ id past v) :
    past.countP Happening.isCall =
      past.countP Happening.isAnswer + Handle.calls v.handle := by
  induction h with
  | nowhere => rfl
  | made _ _ _ hi =>
    rw [Handle.calls_of_isIdle hi]
    rfl
  | step hl h ih =>
    rw [List.countP_append, List.countP_append, ih, Nat.add_assoc, h.countP_isCall,
      Nat.add_assoc]

/-- The log of a message holds every attempt that was recorded. -/
theorem length_attempts (h : Life e₀ id past v) {m : Message} (hm : v.message = some m) :
    m.attempts.length = past.countP Happening.isRecord := by
  induction h generalizing m with
  | nowhere => simp at hm
  | made _ hnew =>
    obtain rfl := Option.some.inj hm
    rw [hnew.attempts]
    rfl
  | step hl h ih =>
    obtain ⟨m₀, hm₀, hlength⟩ := h.length_attempts hm
    rw [hlength, ih hm₀, List.countP_append]

/-- A message is taken once at most, and is over then. -/
theorem countP_isAcceptance (h : Life e₀ id past v) :
    past.countP Happening.isAcceptance = 0 ∨
      past.countP Happening.isAcceptance = 1 ∧ v.IsOver := by
  -- Behind an acceptance the message is over, so that no step can bring another one.
  induction h with
  | nowhere => exact .inl rfl
  | made => exact .inl rfl
  | step hl h ih =>
    rw [List.countP_append]
    rcases ih with hnone | ⟨hone, hover⟩
    · rw [hnone, Nat.zero_add]
      exact h.countP_isAcceptance
    · obtain ⟨hover', rfl⟩ := h.of_over hover
      exact .inr ⟨hone, hover'⟩

end Life

/-! ## Every run -/

namespace Engine

/-- Every delivery in a run that led to an engine is recorded once. -/
structure DeliversOnce (e : Engine) (past : List Happening) : Prop where
  /-- Nothing stands in the way of the record of an attempt that was begun. -/
  recordable : ∀ id s, e.stage? id = some s → s ≠ .pulled →
    ∃ m, e.message? id = some m ∧ m.status = .sending ∧
      (∃ channel, e.registry.get? m.channelId = some channel) ∧
      ∀ content, (withNewContent m content).TakesOutcomes
  /-- The end of a call puts one attempt into the log of its own message. -/
  recorded : ∀ id call, e.callOf? id = some call → ∀ report now,
    ∃ m m' a, e.message? id = some m ∧ (e.complete id report now).message? id = some m' ∧
      m'.attempts = m.attempts ++ [a] ∧ a.attemptedAt = call.attemptedAt ∧
      ∀ j, j ≠ id → (e.complete id report now).message? j = e.message? j
  /-- Nothing else does, apart from the calls that a channel refuses to make. -/
  logged : ∀ m ∈ e.messages,
    m.attempts.length = (Happening.about m.id past).countP Happening.isRecord
  /-- Every call was answered once, or is still under way. -/
  answered : ∀ id, (Happening.about id past).countP Happening.isCall =
    (Happening.about id past).countP Happening.isAnswer + if (e.callOf? id).isSome then 1 else 0
  /-- The deliverer takes no message twice. -/
  taken : ∀ id, (Happening.about id past).countP Happening.isAcceptance ≤ 1
  /-- The deliverer is called for a message that is being sent. -/
  called : ∀ now t id call, .called id call ∈ e.happenings now t →
    call.delivery.messageId = id ∧ ∃ m, e.message? id = some m ∧ m.status = .sending
  /-- Nothing happens to a message behind its end. -/
  ended : ∀ id, (Happening.about id past).Pairwise fun x _ => x.isEnd = false

variable {e₀ e : Engine} {past : List Happening}

/-- A message that was claimed is still stored and being sent. -/
theorem Sound.sending (h : Sound e₀ e past) {id : String} {s : Stage}
    (hstage : e.stage? id = some s) (hs : s ≠ .pulled) :
    ∃ m, e.message? id = some m ∧ m.status = .sending ∧ e.Routes m := by
  cases s with
  | pulled => exact absurd rfl hs
  | claimed m attemptedAt =>
    obtain ⟨hat, -, hsending, hr⟩ := h.claimed hstage
    exact ⟨m, hat.message, hsending, hr⟩
  | calling call =>
    have hcall : e.callOf? id = some call := by
      unfold callOf?
      rw [hstage]
    obtain ⟨m, hat, -, hsending, -, hr⟩ := h.calling hcall
    exact ⟨m, hat.message, hsending, hr⟩

/-- The end of a call is recorded with its message, and with no other. -/
theorem Sound.complete_eq (h : Sound e₀ e past) {id : String} {call : Call}
    (hcall : e.callOf? id = some call) (report : Report) (now : Instant) :
    ∃ m m' spec t, e.message? id = some m ∧ e.spec? m.channelId = some spec ∧
      (withNewContent m call.rendered).Settles spec call.attemptedAt now report m' t ∧
      (e.complete id report now).message? id = some m' ∧
      ∀ j, j ≠ id → (e.complete id report now).message? j = e.message? j := by
  obtain ⟨m, hat, rfl, hs, hc, hr⟩ := h.calling hcall
  obtain ⟨spec, m', t, e₁, hspec, hrecorded, heq⟩ :=
    e.complete_spec hat.message hs hr hcall hc report now
  refine ⟨m, m', spec, t, hat.message, hspec, hrecorded.settles, ?_⟩
  rw [heq]
  exact ⟨(hrecorded.at_land (.refl e) hat).message, fun j hj =>
    (hrecorded.land_agrees (.refl e) hj).message⟩

/-- Only the attempt at a claimed message makes a call. -/
theorem called_of_mem {now : Instant} {t : Turn} {id : String} {call : Call}
    (h : .called id call ∈ e.happenings now t) :
    ∃ m attemptedAt, e.stage? id = some (.claimed m attemptedAt) ∧
      (e.attempt m attemptedAt now).2 = some call := by
  -- Of all turns only an attempt can be seen as a call; the others are excluded one by one.
  cases t with
  | attempt j =>
    simp only [happenings] at h
    split at h
    · next m attemptedAt hstage =>
      rcases List.mem_cons.mp h with h | h
      · simp at h
      · split at h
        · next call' heq =>
          obtain ⟨rfl, rfl⟩ := by simpa using h
          exact ⟨m, attemptedAt, hstage, by rw [heq]⟩
        · simp [Engine.recorded] at h
    · simp at h
  | complete j report =>
    simp only [happenings] at h
    split at h
    · simp [Engine.recorded] at h
    · simp at h
  | cancel j =>
    simp only [happenings] at h
    split at h <;> simp at h
  | offer => simp [happenings] at h
  | sendCustom =>
    simp only [happenings, madeBy] at h
    split at h <;> simp at h
  | sendWebhook =>
    simp only [happenings, madeBy] at h
    split at h <;> simp at h
  | _ => simp [happenings] at h

/-- The life of each message and the handles of the engine give all that is asked of its deliveries.
-/
theorem Sound.deliversOnce (h : Sound e₀ e past) : e.DeliversOnce past where
  -- A claimed message has a route, and so its channel is still registered when the attempt ends.
  recordable id s hstage hs := by
    obtain ⟨m, hm, hsending, hr⟩ := h.sending hstage hs
    obtain ⟨spec, hspec⟩ := hr.channel
    obtain ⟨channel, hget, -⟩ := get?_of_spec? hspec
    exact ⟨m, hm, hsending, ⟨channel, hget⟩, fun content =>
      Message.takesOutcomes_of_sending hsending content⟩
  recorded id call hcall report now := by
    obtain ⟨m, m', spec, t, hm, -, hset, hm', hothers⟩ := h.complete_eq hcall report now
    obtain ⟨a, hfollows, hattempts⟩ := hset.attempts
    rw [attempts_withNewContent] at hattempts
    exact ⟨m, m', a, hm, hm', hattempts, hfollows.attemptedAt, hothers⟩
  logged m hm := by
    obtain ⟨x, -, hlife⟩ := h.position hm
    exact hlife.length_attempts rfl
  answered id := by
    obtain ⟨v, hat, hlife⟩ := h.life id
    rw [hlife.countP_isCall, hat.calls_eq]
  taken id := by
    obtain ⟨v, -, hlife⟩ := h.life id
    rcases hlife.countP_isAcceptance with hnone | ⟨hone, -⟩
    · rw [hnone]
      exact Nat.zero_le 1
    · exact Nat.le_of_eq hone
  called now t id call hmem := by
    obtain ⟨m, attemptedAt, hstage, hcall⟩ := called_of_mem hmem
    obtain ⟨hat, hid, hs, hr⟩ := h.claimed hstage
    refine ⟨?_, m, hat.message, hs⟩
    rcases e.attempt_spec (hid ▸ hat.message) hs hr attemptedAt now with
      ⟨call', e₁, hfor, -, -, heq⟩ | ⟨_, _, _, _, _, _, _, -, -, -, -, -, heq⟩
    · rw [heq] at hcall
      obtain rfl := Option.some.inj hcall
      obtain ⟨content, -, hdelivery⟩ := hfor.content
      rw [hdelivery, ← hid]
      rfl
    · rw [heq] at hcall
      simp at hcall
  ended id := by
    obtain ⟨v, -, hlife⟩ := h.life id
    exact hlife.pairwise

/-- Whatever a run does while deliveries are under way, each is recorded once, and none comes
behind the end of its message. -/
theorem run_deliversOnce (registry : Registry) (templates : TemplateStore)
    (directory : Directory) (policy : Policy) (idSupply : IdSupply)
    (turns : List (Instant × Turn)) :
    ((create registry templates directory policy idSupply).run turns).DeliversOnce
      ((create registry templates directory policy idSupply).history turns) :=
  (run_sound registry templates directory policy idSupply turns).deliversOnce

end Engine

end Klaxon
