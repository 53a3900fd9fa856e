import Klaxon.Proofs.Dispatch.Position

/-!
# The steps of a message

The life of one message, apart from all others. A position takes a `Step` when its message is
claimed, its call ends, its timer fires, and so on; `Position.Fits` says which message may have
which handle, and `Step.fits` that steps keep this. What a recorded attempt does to a message is
`Message.Settles`.

The steps are those of a run that started with an engine `e₀`: its templates and the definitions of
its channels stay the same throughout.
-/

namespace Klaxon

/-- An attempt is the next one of a message. -/
structure Attempt.Follows (a : Attempt) (m : Message) (attemptedAt : Instant) : Prop where
  number : a.number = m.nextAttemptNumber
  attemptedAt : a.attemptedAt = attemptedAt

namespace Message

/-- A status that only a waiting message can move to. -/
theorem allows_iff_queued {a b : Status} (hb : b = .sending ∨ b = .cancelled) :
    a.allows b = true ↔ a = .queued := by
  rcases hb with rfl | rfl <;> cases a <;> decide

/-- A message that moved was allowed to, and only its status has changed. -/
theorem moveTo_eq_ok {m m' : Message} {s : Status} (h : m.moveTo s = .ok m') :
    m.status.allows s = true ∧ m' = { m with status := s } := by
  unfold moveTo at h
  split at h
  · next hallows => exact ⟨hallows, (Except.ok.inj h).symm⟩
  · simp at h

/-- A message that did not move was not allowed to. -/
theorem moveTo_eq_error {m : Message} {s : Status} {error : DispatchError}
    (h : m.moveTo s = .error error) : m.status.allows s ≠ true := by
  unfold moveTo at h
  split at h
  · simp at h
  · next hallows => exact hallows

/-- Two states of one message: what was decided when it was made is the same. -/
structure SameOrigin (m m' : Message) : Prop where
  id : m'.id = m.id
  alertId : m'.alertId = m.alertId
  channelId : m'.channelId = m.channelId
  channelType : m'.channelType = m.channelType
  recipient : m'.recipient = m.recipient
  templateId : m'.templateId = m.templateId
  priority : m'.priority = m.priority
  context : m'.context = m.context
  createdAt : m'.createdAt = m.createdAt

/-- A message has the origin of itself. -/
theorem SameOrigin.refl (m : Message) : m.SameOrigin m :=
  ⟨rfl, rfl, rfl, rfl, rfl, rfl, rfl, rfl, rfl⟩

/-- Having the same origin can be chained. -/
theorem SameOrigin.trans {a b c : Message} (hab : a.SameOrigin b) (hbc : b.SameOrigin c) :
    a.SameOrigin c :=
  ⟨hbc.id.trans hab.id, hbc.alertId.trans hab.alertId, hbc.channelId.trans hab.channelId,
    hbc.channelType.trans hab.channelType, hbc.recipient.trans hab.recipient,
    hbc.templateId.trans hab.templateId, hbc.priority.trans hab.priority,
    hbc.context.trans hab.context, hbc.createdAt.trans hab.createdAt⟩

/-- How the record of an attempt leaves a message that is being sent, and the timer that it
sets. -/
inductive Settles (spec : ChannelSpec) (attemptedAt now : Instant) (report : Report)
    (m : Message) : Message → Option Timer → Prop where
  | delivered {receipt : Receipt} {a : Attempt} (hr : report.result = .ok receipt)
      (ha : a.Follows m attemptedAt) (ho : a.outcome = .success) (hd : a.retryDelayMs = none) :
      Settles spec attemptedAt now report m
        { m with
          status := .delivered, attempts := m.attempts ++ [a], deliveredAt := some now }
        none
  | retried {error : DispatchError} {a : Attempt} (hr : report.result = .error error)
      (ha : a.Follows m attemptedAt) (ho : a.outcome = .retry)
      (hd : a.retryDelayMs = some (spec.retryPolicy.delayFor a.number))
      (hworth : spec.retryClassification.shouldRetry error = true)
      (hallows : spec.retryPolicy.allowsRetry a.number = true) :
      Settles spec attemptedAt now report m
        { m with
          status := .queued
          attempts := m.attempts ++ [a]
          scheduledAt := Engine.retryAt now (spec.retryPolicy.delayFor a.number) }
        (some ⟨m.id, m.priority,
          now.add ((spec.retryPolicy.delayFor a.number).toNat * Time.millisecond)⟩)
  | failed {error : DispatchError} {a : Attempt} (hr : report.result = .error error)
      (ha : a.Follows m attemptedAt) (ho : a.outcome = .failed) (hd : a.retryDelayMs = none)
      (he : a.error = some error.message)
      (hlast : ¬ (spec.retryClassification.shouldRetry error = true ∧
        spec.retryPolicy.allowsRetry a.number = true)) :
      Settles spec attemptedAt now report m
        { m with status := .failed, attempts := m.attempts ++ [a] } none

/-- An attempt changes nothing of what was decided when the message was made. -/
theorem Settles.sameOrigin {spec : ChannelSpec} {attemptedAt now : Instant} {report : Report}
    {m m' : Message} {t : Option Timer} (h : m.Settles spec attemptedAt now report m' t) :
    m.SameOrigin m' := by
  cases h <;> exact ⟨rfl, rfl, rfl, rfl, rfl, rfl, rfl, rfl, rfl⟩

/-- New content changes nothing of what was decided when the message was made. -/
theorem sameOrigin_withNewContent (m : Message) (content : Option RenderedContent) :
    m.SameOrigin (Engine.withNewContent m content) := by
  cases content <;> exact ⟨rfl, rfl, rfl, rfl, rfl, rfl, rfl, rfl, rfl⟩

/-- The timer of a retry is for the message and its lane. -/
theorem Settles.timer_eq {spec : ChannelSpec} {attemptedAt now : Instant} {report : Report}
    {m m' : Message} {t : Timer} (h : m.Settles spec attemptedAt now report m' (some t)) :
    t.messageId = m.id ∧ t.priority = m.priority ∧ m'.status = .queued := by
  cases h
  exact ⟨rfl, rfl, rfl⟩

/-- A timer that is set names the message. -/
theorem Settles.timer_messageId {spec : ChannelSpec} {attemptedAt now : Instant}
    {report : Report} {m m' : Message} {t : Option Timer}
    (h : m.Settles spec attemptedAt now report m' t) : ∀ x, t = some x → x.messageId = m'.id := by
  rintro x rfl
  exact h.timer_eq.1.trans h.sameOrigin.id.symm

/-- Without a timer the message is over. -/
theorem Settles.status_of_none {spec : ChannelSpec} {attemptedAt now : Instant} {report : Report}
    {m m' : Message} (h : m.Settles spec attemptedAt now report m' none) :
    m'.status = .delivered ∨ m'.status = .failed := by
  cases h
  · exact .inl rfl
  · exact .inr rfl

end Message

namespace Engine

/-- The definition of a channel. -/
def spec? (e : Engine) (channelId : String) : Option ChannelSpec :=
  (e.registry.get? channelId).map Channel.spec

/-- Equal definitions are found alike. -/
theorem spec?_congr {e e' : Engine}
    (h : e'.registry.map Channel.spec = e.registry.map Channel.spec) (id : String) :
    e'.spec? id = e.spec? id := by
  -- Channels are found by their ids, which are part of their definitions.
  have hfind : ∀ r : Registry, (r.get? id).map Channel.spec =
      (r.map Channel.spec).find? fun s => s.id == id := by
    intro r
    rw [List.find?_map]
    rfl
  unfold spec?
  rw [hfind, hfind, h]

/-- The channel of a message is there, and its template serves the channel type. -/
structure Routes (e : Engine) (m : Message) : Prop where
  channel : ∃ spec, e.spec? m.channelId = some spec
  template : ∃ t, e.templates.get? m.templateId = some t ∧ t.supports m.channelType = true

/-- Where templates and definitions are the same, so are routes. -/
theorem Routes.of_eq {e e' : Engine} {m : Message} (h : e.Routes m)
    (ht : e'.templates = e.templates)
    (hs : e'.registry.map Channel.spec = e.registry.map Channel.spec) : e'.Routes m :=
  ⟨by rw [spec?_congr hs]; exact h.channel, by rw [ht]; exact h.template⟩

/-- A route depends on what was decided when the message was made. -/
theorem Routes.congr {e : Engine} {m m' : Message} (h : e.Routes m) (hm : m.SameOrigin m') :
    e.Routes m' :=
  ⟨by rw [hm.channelId]; exact h.channel, by rw [hm.templateId, hm.channelType]; exact h.template⟩

/-- The content of a message depends on the templates only. -/
theorem contentOf_congr {e e' : Engine} (h : e'.templates = e.templates) (m : Message) :
    e'.contentOf m = e.contentOf m := by
  unfold Engine.contentOf render
  rw [h]

/-- A message with a route has content. -/
theorem Routes.contentOf {e : Engine} {m : Message} (h : e.Routes m) :
    ∃ content rendered, e.contentOf m = .ok (content, rendered) := by
  obtain ⟨t, ht, hsupports⟩ := h.template
  obtain ⟨content, hcontent⟩ := (t.render_isOk_iff m.channelType m.context).mpr hsupports
  unfold Engine.contentOf render
  split
  · -- What is stored already is the content, and otherwise the template renders it.
    exact ⟨_, _, rfl⟩
  · rw [ht]
    simp only [hcontent]
    exact ⟨_, _, rfl⟩

end Engine

/-- A call is for a claimed message, with the content that its template gives. -/
structure Call.IsFor (call : Call) (e₀ : Engine) (m : Message) (attemptedAt : Instant) :
    Prop where
  channelId : call.channelId = m.channelId
  attemptedAt : call.attemptedAt = attemptedAt
  content : ∃ content, e₀.contentOf m = .ok (content, call.rendered) ∧
    call.delivery = .ofMessage m content

/-! ## Steps -/

/-- A change of the position of an id, with what is seen of it. -/
inductive Step (e₀ : Engine) (id : String) (now : Instant) :
    Position → List Happening → Position → Prop where
  | stay (v : Position) : Step e₀ id now v [] v
  | cancelled {m : Message} {h : Option Handle} (hs : m.status = .queued) :
      Step e₀ id now ⟨some m, h⟩ [.cancelled { m with status := .cancelled } now]
        ⟨some { m with status := .cancelled }, h⟩
  | forgotten {m : Message} {h : Option Handle} (hs : m.status.isTerminal = true) :
      Step e₀ id now ⟨some m, h⟩ [] ⟨none, h⟩
  | pulled {m : Option Message} {p : Priority} :
      Step e₀ id now ⟨m, some (.lane p)⟩ [] ⟨m, some (.flight .pulled)⟩
  /-- The message of a pulled id does not wait any more. -/
  | skipped {m : Option Message} (hs : ∀ m', m = some m' → m'.status ≠ .queued) :
      Step e₀ id now ⟨m, some (.flight .pulled)⟩ [] ⟨m, none⟩
  | claimed {m : Message} (hs : m.status = .queued) :
      Step e₀ id now ⟨some m, some (.flight .pulled)⟩ []
        ⟨some { m with status := .sending },
          some (.flight (.claimed { m with status := .sending } now))⟩
  | called {m : Message} {attemptedAt : Instant} {call : Call}
      (hc : call.IsFor e₀ m attemptedAt) :
      Step e₀ id now ⟨some m, some (.flight (.claimed m attemptedAt))⟩
        [.begun m, .called id call] ⟨some m, some (.flight (.calling call))⟩
  /-- The rate limit of the channel refuses the call. -/
  | refused {m m' : Message} {attemptedAt : Instant} {spec : ChannelSpec}
      {content : RenderedContent} {rendered : Option RenderedContent} {t : Option Timer}
      (hspec : e₀.spec? m.channelId = some spec)
      (hc : e₀.contentOf m = .ok (content, rendered))
      (hset : (Engine.withNewContent m rendered).Settles spec attemptedAt now
        ⟨.error (.rateLimited m.channelId), 0⟩ m' t) :
      Step e₀ id now ⟨some m, some (.flight (.claimed m attemptedAt))⟩
        [.begun m, .recorded m' now] ⟨some m', t.map .timer⟩
  | completed {m m' : Message} {call : Call} {spec : ChannelSpec} {report : Report}
      {t : Option Timer} (hspec : e₀.spec? m.channelId = some spec)
      (hset : (Engine.withNewContent m call.rendered).Settles spec call.attemptedAt now report
        m' t) :
      Step e₀ id now ⟨some m, some (.flight (.calling call))⟩
        [.answered id report, .recorded m' now] ⟨some m', t.map .timer⟩
  | fired {m : Message} {t : Timer} (hs : m.status = .queued) :
      Step e₀ id now ⟨some m, some (.timer t)⟩ [] ⟨some m, some (.lane t.priority)⟩
  /-- The message of a timer does not wait any more. -/
  | dropped {m : Option Message} {t : Timer} (hs : ∀ m', m = some m' → m'.status ≠ .queued) :
      Step e₀ id now ⟨m, some (.timer t)⟩ [] ⟨m, none⟩

/-- Nothing happens to an id that is nowhere. -/
theorem Step.of_nowhere {e₀ : Engine} {id : String} {now : Instant} {hs : List Happening}
    {v : Position} (h : Step e₀ id now ⟨none, none⟩ hs v) : v = ⟨none, none⟩ ∧ hs = [] := by
  cases h
  exact ⟨rfl, rfl⟩

/-- A message that stays stored stays the same message. -/
theorem Step.sameOrigin {e₀ : Engine} {id : String} {now : Instant} {hs : List Happening}
    {v v' : Position} (h : Step e₀ id now v hs v') {m' : Message} (hm' : v'.message = some m') :
    ∃ m, v.message = some m ∧ m.SameOrigin m' := by
  cases h with
  | stay => exact ⟨m', hm', .refl m'⟩
  | @cancelled m =>
    obtain rfl : { m with status := .cancelled } = m' := by simpa using hm'
    exact ⟨m, rfl, ⟨rfl, rfl, rfl, rfl, rfl, rfl, rfl, rfl, rfl⟩⟩
  | forgotten => simp at hm'
  | pulled => exact ⟨m', hm', .refl m'⟩
  | skipped => exact ⟨m', hm', .refl m'⟩
  | @claimed m =>
    obtain rfl : { m with status := .sending } = m' := by simpa using hm'
    exact ⟨m, rfl, ⟨rfl, rfl, rfl, rfl, rfl, rfl, rfl, rfl, rfl⟩⟩
  | called => exact ⟨m', hm', .refl m'⟩
  | @refused m after _ _ _ rendered _ _ _ hset =>
    obtain rfl : after = m' := by simpa using hm'
    exact ⟨m, rfl, (m.sameOrigin_withNewContent rendered).trans hset.sameOrigin⟩
  | @completed m after call _ _ _ _ hset =>
    obtain rfl : after = m' := by simpa using hm'
    exact ⟨m, rfl, (m.sameOrigin_withNewContent call.rendered).trans hset.sameOrigin⟩
  | fired => exact ⟨m', hm', .refl m'⟩
  | dropped => exact ⟨m', hm', .refl m'⟩

/-! ## Which message has which handle -/

/-- The messages and handles that go together. -/
inductive Position.Shape : Position → Prop where
  | absent {h : Option Handle} (hi : ∀ x, h = some x → x.IsIdle) : Shape ⟨none, h⟩
  | queued {m : Message} {h : Handle} (hs : m.status = .queued) (hi : h.IsIdle)
      (hp : h.LeadsTo m.priority) : Shape ⟨some m, some h⟩
  | claimed {m : Message} {attemptedAt : Instant} (hs : m.status = .sending) :
      Shape ⟨some m, some (.flight (.claimed m attemptedAt))⟩
  | calling {m : Message} {call : Call} (hs : m.status = .sending)
      (hc : call.channelId = m.channelId) : Shape ⟨some m, some (.flight (.calling call))⟩
  | settled {m : Message} (hs : m.status = .delivered ∨ m.status = .failed) : Shape ⟨some m, none⟩
  | cancelled {m : Message} {h : Option Handle} (hs : m.status = .cancelled)
      (hi : ∀ x, h = some x → x.IsIdle) : Shape ⟨some m, h⟩

/-- A position that an id can have in a run from an engine. -/
structure Position.Fits (e₀ : Engine) (id : String) (v : Position) : Prop where
  /-- The message is stored under its id, and its channel and its template are there. -/
  stored : ∀ m, v.message = some m → m.id = id ∧ e₀.Routes m
  shape : v.Shape

/-- An id that is nowhere fits. -/
theorem Position.fits_nowhere (e₀ : Engine) (id : String) :
    Position.Fits e₀ id ⟨none, none⟩ :=
  ⟨fun m hm => by simp at hm, .absent fun x hx => by simp at hx⟩

/-- A position after the record of an attempt. -/
theorem Message.Settles.shape {spec : ChannelSpec} {attemptedAt now : Instant} {report : Report}
    {m m' : Message} {t : Option Timer} (h : m.Settles spec attemptedAt now report m' t) :
    Position.Shape ⟨some m', t.map .timer⟩ := by
  cases t with
  | none => exact .settled h.status_of_none
  | some t =>
    obtain ⟨-, hp, hs⟩ := h.timer_eq
    exact .queued hs trivial (hp.trans h.sameOrigin.priority.symm)

/-- What can be cancelled or forgotten, or was, leaves an idle handle. -/
theorem Position.Shape.isIdle {m : Message} {h : Option Handle} (hv : Position.Shape ⟨some m, h⟩)
    (hs : m.status ≠ .sending) : ∀ x, h = some x → x.IsIdle := by
  intro x hx
  cases hv with
  | queued _ hi => exact Option.some.inj hx ▸ hi
  | claimed h => exact absurd h hs
  | calling h => exact absurd h hs
  | settled => simp at hx
  | cancelled _ hi => exact hi x hx

/-- Without its handle, a message that does not wait keeps its shape. -/
theorem Position.Shape.drop {m : Option Message} {h : Handle}
    (hv : Position.Shape ⟨m, some h⟩) (hi : h.IsIdle)
    (hs : ∀ m', m = some m' → m'.status ≠ .queued) : Position.Shape ⟨m, none⟩ := by
  cases hv with
  | absent => exact .absent fun x hx => by simp at hx
  | queued hq => exact absurd hq (hs _ rfl)
  | claimed => exact hi.elim
  | calling => exact hi.elim
  | cancelled hc => exact .cancelled hc fun x hx => by simp at hx

/-- An idle handle may be exchanged for another that leads to the same lane. -/
theorem Position.Shape.exchange {m : Option Message} {h h' : Handle}
    (hv : Position.Shape ⟨m, some h⟩) (hi : h.IsIdle) (hi' : h'.IsIdle)
    (hp : ∀ p, h.LeadsTo p → h'.LeadsTo p) : Position.Shape ⟨m, some h'⟩ := by
  have hidle : ∀ x, some h' = some x → x.IsIdle := fun x hx => Option.some.inj hx ▸ hi'
  cases hv with
  | absent => exact .absent hidle
  | queued hq _ hlane => exact .queued hq hi' (hp _ hlane)
  | claimed => exact hi.elim
  | calling => exact hi.elim
  | cancelled hc => exact .cancelled hc hidle

/-- Steps keep the shape of a position. -/
theorem Step.shape {e₀ : Engine} {id : String} {now : Instant} {hs : List Happening}
    {v v' : Position} (h : Step e₀ id now v hs v') (hv : v.Shape) : v'.Shape := by
  cases h with
  | stay => exact hv
  | cancelled hq => exact .cancelled rfl (hv.isIdle (by rw [hq]; decide))
  | @forgotten m _ hterm =>
    -- A message that is being sent is not over, so that it cannot be forgotten.
    refine .absent (hv.isIdle fun hsend => ?_)
    rw [hsend] at hterm
    exact absurd hterm (by decide)
  | pulled => exact hv.exchange trivial trivial fun _ _ => trivial
  | skipped hq => exact hv.drop trivial hq
  | claimed => exact .claimed rfl
  | called hc =>
    cases hv with
    | queued _ hi => exact hi.elim
    | claimed hsend => exact .calling hsend hc.channelId
    | cancelled _ hi => exact (hi _ rfl).elim
  | refused _ _ hset => exact hset.shape
  | completed _ hset => exact hset.shape
  | fired => exact hv.exchange trivial trivial fun _ hp => hp
  | dropped hq => exact hv.drop trivial hq

/-- Steps keep a position fitting. -/
theorem Step.fits {e₀ : Engine} {id : String} {now : Instant} {hs : List Happening}
    {v v' : Position} (h : Step e₀ id now v hs v') (hv : v.Fits e₀ id) : v'.Fits e₀ id := by
  refine ⟨fun m' hm' => ?_, h.shape hv.shape⟩
  obtain ⟨m, hm, hsame⟩ := h.sameOrigin hm'
  obtain ⟨hid, hroutes⟩ := hv.stored m hm
  exact ⟨hsame.id.trans hid, hroutes.congr hsame⟩

/-- All that can be seen of a step. A message is seen as it is stored, before the step where an
attempt begins and behind it otherwise. -/
theorem Step.seen {e₀ : Engine} {id : String} {now : Instant} {hs : List Happening}
    {v v' : Position} (h : Step e₀ id now v hs v') {x : Happening} (hx : x ∈ hs) :
    (∃ m, v.message = some m ∧ x = .begun m) ∨
    (∃ m, v'.message = some m ∧ x = .recorded m now) ∨
    (∃ m, v'.message = some m ∧ m.status = .cancelled ∧ x = .cancelled m now) ∨
    (∃ call, x = .called id call) ∨ ∃ report, x = .answered id report := by
  cases h with
  | cancelled => exact .inr (.inr (.inl ⟨_, rfl, rfl, List.mem_singleton.mp hx⟩))
  | called =>
    rcases List.mem_cons.mp hx with hx | hx
    · exact .inl ⟨_, rfl, hx⟩
    · exact .inr (.inr (.inr (.inl ⟨_, List.mem_singleton.mp hx⟩)))
  | refused =>
    rcases List.mem_cons.mp hx with hx | hx
    · exact .inl ⟨_, rfl, hx⟩
    · exact .inr (.inl ⟨_, rfl, List.mem_singleton.mp hx⟩)
  | completed =>
    rcases List.mem_cons.mp hx with hx | hx
    · exact .inr (.inr (.inr (.inr ⟨_, hx⟩)))
    · exact .inr (.inl ⟨_, rfl, List.mem_singleton.mp hx⟩)
  | _ => simp at hx

/-- What is seen of a step is about its id. -/
theorem Step.messageId_eq {e₀ : Engine} {id : String} {now : Instant} {hs : List Happening}
    {v v' : Position} (h : Step e₀ id now v hs v') (hv : v.Fits e₀ id) :
    ∀ x ∈ hs, x.messageId = id := by
  intro x hx
  rcases h.seen hx with ⟨m, hm, rfl⟩ | ⟨m, hm, rfl⟩ | ⟨m, hm, -, rfl⟩ | ⟨_, rfl⟩ | ⟨_, rfl⟩
  · exact (hv.stored m hm).1
  · exact ((h.fits hv).stored m hm).1
  · exact ((h.fits hv).stored m hm).1
  · rfl
  · rfl

/-! ## Lives -/

/-- A message as it is made: it waits, and nothing was tried. -/
structure Message.IsNew (m : Message) : Prop where
  status : m.status = .queued
  attempts : m.attempts = []
  deliveredAt : m.deliveredAt = none

/-- The life of an id in a run from an engine: what is seen to happen to it, and where it is
then. -/
inductive Life (e₀ : Engine) (id : String) : List Happening → Position → Prop where
  | nowhere : Life e₀ id [] ⟨none, none⟩
  | made {m : Message} {h : Handle} (hid : m.id = id) (hnew : m.IsNew) (hr : e₀.Routes m)
      (hi : h.IsIdle) (hp : h.LeadsTo m.priority) : Life e₀ id [.made m] ⟨some m, some h⟩
  | step {past hs : List Happening} {v v' : Position} {now : Instant} (hl : Life e₀ id past v)
      (h : Step e₀ id now v hs v') : Life e₀ id (past ++ hs) v'

/-- The positions of a life fit. -/
theorem Life.fits {e₀ : Engine} {id : String} {past : List Happening} {v : Position}
    (h : Life e₀ id past v) : v.Fits e₀ id := by
  induction h with
  | nowhere => exact Position.fits_nowhere e₀ id
  | @made m _ hid hnew hr hi hp =>
    refine ⟨fun m' hm' => ?_, .queued hnew.status hi hp⟩
    obtain rfl : m = m' := by simpa using hm'
    exact ⟨hid, hr⟩
  | step _ h ih => exact h.fits ih

end Klaxon
