import Klaxon.Proofs.Dispatch.Routing

/-!
# What is delivered is what was made

A message is made without content. Its first attempt renders it, and the record of that attempt
stores what was rendered, whether the deliverer took the message, refused it, or was not even called
because of a rate limit; later attempts use what is stored. `run_deliversAsMade` says that all this
makes no difference to the deliverer: each call for a message carries the rendering of the template
for the message as it was made.

What is carried along a life is `Position.Written`: a message is blank and was never tried, or it
has the content that its template gives; and the content that a call under way is to store is that
content, too. Each step keeps it (`Step.written`). The rendering reads nothing of a message but what
was decided when it was made, so that it is the same before and behind a step (`render_congr`).
-/

namespace Klaxon

namespace Message

/-- A message without content, at which no attempt was made. -/
structure IsBlank (m : Message) : Prop where
  subject : m.subject = none
  body : m.body = none
  attempts : m.attempts = []

/-- A message has a content. -/
structure HasContent (m : Message) (content : RenderedContent) : Prop where
  subject : m.subject = some content.subject
  body : m.body = some content.body
  format : m.format = content.format

/-- A message is blank, or has the content that its template gives. -/
def IsWritten (m : Message) (e : Engine) : Prop :=
  ∃ content, e.render m = .ok content ∧ (m.IsBlank ∨ m.HasContent content)

/-- Subject and body of a message with a content are rendered. -/
theorem HasContent.isRendered {m : Message} {content : RenderedContent}
    (h : m.HasContent content) : m.isRendered = true := by
  unfold Message.isRendered
  rw [h.subject, h.body]
  rfl

/-- The content of a message that has one. -/
theorem HasContent.eq {m : Message} {content : RenderedContent} (h : m.HasContent content) :
    (⟨m.subject.getD "", m.body.getD "", m.format⟩ : RenderedContent) = content := by
  rw [h.subject, h.body, h.format]
  rfl

/-- The status of a message is no part of its content. -/
theorem HasContent.withStatus {m : Message} {content : RenderedContent} (h : m.HasContent content)
    (s : Status) : HasContent { m with status := s } content :=
  ⟨h.subject, h.body, h.format⟩

/-- New content is what a message has from then on. -/
theorem hasContent_withContent (m : Message) (content : RenderedContent) :
    (m.withContent content).HasContent content := ⟨rfl, rfl, rfl⟩

/-- The record of an attempt leaves the content as it is. -/
theorem Settles.hasContent {spec : ChannelSpec} {attemptedAt now : Instant} {report : Report}
    {m m' : Message} {t : Option Timer} {content : RenderedContent}
    (h : m.Settles spec attemptedAt now report m' t) (hc : m.HasContent content) :
    m'.HasContent content := by
  have hsame : m'.subject = m.subject ∧ m'.body = m.body ∧ m'.format = m.format := by
    cases h <;> exact ⟨rfl, rfl, rfl⟩
  obtain ⟨hsubject, hbody, hformat⟩ := hsame
  constructor
  · rw [hsubject]; exact hc.subject
  · rw [hbody]; exact hc.body
  · rw [hformat]; exact hc.format

end Message

/-- What a deliverer is given of a message depends on its origin and on the content. -/
theorem Delivery.ofMessage_congr {m m' : Message} (h : m.SameOrigin m')
    (content : RenderedContent) : Delivery.ofMessage m' content = .ofMessage m content := by
  unfold Delivery.ofMessage
  rw [h.id, h.recipient, h.priority, h.context]

namespace Engine

/-! ## Rendering -/

/-- The rendering of a message depends on its origin. -/
theorem render_congr (e : Engine) {m m' : Message} (h : m.SameOrigin m') :
    e.render m' = e.render m := by
  unfold render
  rw [h.templateId, h.channelType, h.context]

/-- The rendering of a message depends on the templates. -/
theorem render_of_templates {e e' : Engine} (h : e'.templates = e.templates) (m : Message) :
    e'.render m = e.render m := by
  unfold render
  rw [h]

/-- A message with a route can be rendered. -/
theorem Routes.render {e : Engine} {m : Message} (h : e.Routes m) :
    ∃ content, e.render m = .ok content := by
  obtain ⟨t, ht, hsupports⟩ := h.template
  obtain ⟨content, hcontent⟩ := (t.render_isOk_iff m.channelType m.context).mpr hsupports
  refine ⟨content, ?_⟩
  unfold Engine.render
  rw [ht]
  exact hcontent

/-- The content that an attempt uses is the rendering of its message, whether it is stored already
or new; and with what is new stored, the message has it. -/
theorem contentOf_spec {e : Engine} {m : Message} (h : m.IsWritten e) {content : RenderedContent}
    {rendered : Option RenderedContent} (hc : e.contentOf m = .ok (content, rendered)) :
    e.render m = .ok content ∧ (withNewContent m rendered).HasContent content := by
  obtain ⟨written, hrender, hblank | hhas⟩ := h
  · -- Nothing is stored, so that the message is rendered now.
    have hnot : m.isRendered = false := by
      unfold Message.isRendered
      rw [hblank.subject]
      rfl
    unfold contentOf at hc
    rw [hnot, hrender] at hc
    obtain ⟨rfl, rfl⟩ := Prod.mk.inj (Except.ok.inj hc)
    exact ⟨hrender, m.hasContent_withContent written⟩
  · -- What is stored is used as it is.
    unfold contentOf at hc
    rw [hhas.isRendered, hhas.eq] at hc
    obtain ⟨rfl, rfl⟩ := Prod.mk.inj (Except.ok.inj hc)
    exact ⟨hrender, hhas⟩

end Engine

/-! ## Steps -/

/-- The message of a position is written, and behind the record of a call that is under way it has
the content that its template gives. -/
structure Position.Written (e₀ : Engine) (v : Position) : Prop where
  message : ∀ m, v.message = some m → m.IsWritten e₀
  call : ∀ m call, v.message = some m → v.handle = some (.flight (.calling call)) →
    ∃ content, e₀.render m = .ok content ∧
      (Engine.withNewContent m call.rendered).HasContent content

variable {e₀ : Engine} {id : String} {now : Instant} {past hs : List Happening} {v v' : Position}

/-- Where no call is under way, only the message counts. -/
theorem Position.written_of_calls {m : Option Message} {h : Option Handle}
    (hm : ∀ x, m = some x → x.IsWritten e₀) (hh : Handle.calls h = 0) :
    Position.Written e₀ ⟨m, h⟩ := by
  refine ⟨hm, fun x call _ hcall => ?_⟩
  obtain rfl : h = some (.flight (.calling call)) := hcall
  simp [Handle.calls] at hh

/-- A change of status keeps a message written. -/
theorem Message.IsWritten.withStatus {m : Message} (h : m.IsWritten e₀) (s : Status) :
    IsWritten { m with status := s } e₀ := by
  obtain ⟨content, hrender, hblank | hhas⟩ := h
  · exact ⟨content, hrender, .inl ⟨hblank.subject, hblank.body, hblank.attempts⟩⟩
  · exact ⟨content, hrender, .inr (hhas.withStatus s)⟩

/-- Behind the record of an attempt that used the content of the template, a message is written and
no call is under way. -/
theorem Message.Settles.written {spec : ChannelSpec} {attemptedAt : Instant} {report : Report}
    {m m' : Message} {t : Option Timer} {rendered : Option RenderedContent}
    {content : RenderedContent}
    (h : (Engine.withNewContent m rendered).Settles spec attemptedAt now report m' t)
    (hrender : e₀.render m = .ok content)
    (hhas : (Engine.withNewContent m rendered).HasContent content) :
    Position.Written e₀ ⟨some m', t.map .timer⟩ := by
  have hsame : m.SameOrigin m' := (m.sameOrigin_withNewContent rendered).trans h.sameOrigin
  have hcalls : Handle.calls (t.map Handle.timer) = 0 := by cases t <;> rfl
  apply Position.written_of_calls _ hcalls
  rintro x hx
  obtain rfl := Option.some.inj hx
  refine ⟨content, ?_, .inr (h.hasContent hhas)⟩
  rw [e₀.render_congr hsame]
  exact hrender

/-- A call that a step makes is for the content that the template gives. -/
theorem Step.called_spec (h : Step e₀ id now v hs v') (hw : v.Written e₀) {j : String}
    {call : Call} (hcall : .called j call ∈ hs) : ∃ m content, v.message = some m ∧
      e₀.render m = .ok content ∧ call.delivery = .ofMessage m content := by
  cases h with
  | @called m attemptedAt made hc =>
    obtain ⟨content, hcontent, hdelivery⟩ := hc.content
    obtain ⟨hrender, -⟩ := Engine.contentOf_spec (hw.message m rfl) hcontent
    obtain ⟨-, rfl⟩ : j = id ∧ call = made := by simpa using hcall
    exact ⟨m, content, rfl, hrender, hdelivery⟩
  | _ => simp at hcall

/-- Every step keeps messages written. -/
theorem Step.written (h : Step e₀ id now v hs v') (hv : v.Fits e₀ id) (hw : v.Written e₀) :
    v'.Written e₀ := by
  cases h with
  | stay => exact hw
  | @cancelled m handle hq =>
    -- A message that waits has no call under way.
    have hcalls : Handle.calls handle = 0 := by
      cases handle with
      | none => rfl
      | some x => exact Handle.calls_of_isIdle (hv.shape.isIdle (by simp [hq]) x rfl)
    apply Position.written_of_calls _ hcalls
    rintro x hx
    obtain rfl := Option.some.inj hx
    exact (hw.message m rfl).withStatus .cancelled
  | forgotten => exact ⟨fun m hm => by simp at hm, fun m _ hm => by simp at hm⟩
  | pulled => exact Position.written_of_calls hw.message rfl
  | skipped => exact Position.written_of_calls hw.message rfl
  | @claimed m hq =>
    apply Position.written_of_calls _ rfl
    rintro x hx
    obtain rfl := Option.some.inj hx
    exact (hw.message m rfl).withStatus .sending
  | @called m attemptedAt call hc =>
    obtain ⟨content, hcontent, -⟩ := hc.content
    obtain ⟨hrender, hhas⟩ := Engine.contentOf_spec (hw.message m rfl) hcontent
    refine ⟨hw.message, fun x made hx hmade => ?_⟩
    obtain rfl := Option.some.inj hx
    obtain rfl : call = made := by simpa using hmade
    exact ⟨content, hrender, hhas⟩
  | @refused m m' attemptedAt spec content rendered t _ hcontent hset =>
    -- The rate limit is asked behind the rendering, so that what was rendered is stored.
    obtain ⟨hrender, hhas⟩ := Engine.contentOf_spec (hw.message m rfl) hcontent
    exact hset.written hrender hhas
  | @completed m m' call spec report t _ hset =>
    -- What the call is to store was settled when it was made.
    obtain ⟨content, hrender, hhas⟩ := hw.call m call rfl rfl
    exact hset.written hrender hhas
  | fired => exact Position.written_of_calls hw.message rfl
  | dropped => exact Position.written_of_calls hw.message rfl

/-! ## Lives -/

/-- Where messages are made blank, they are written all their lives, and each call is for the
content that the template gives for the message that was made. -/
theorem Life.written (h : Life e₀ id past v) (hblank : ∀ m, .made m ∈ past → m.IsBlank) :
    v.Written e₀ ∧ ∀ j call, .called j call ∈ past → ∃ first content, .made first ∈ past ∧
      e₀.render first = .ok content ∧ call.delivery = .ofMessage first content := by
  induction h with
  | nowhere =>
    exact ⟨Position.written_of_calls (fun m hm => by simp at hm) rfl,
      fun j call hcall => by simp at hcall⟩
  | @made m handle hid hnew hr hi hp =>
    obtain ⟨content, hrender⟩ := hr.render
    refine ⟨Position.written_of_calls ?_ (Handle.calls_of_isIdle hi),
      fun j call hcall => by simp at hcall⟩
    rintro x hx
    obtain rfl := Option.some.inj hx
    exact ⟨content, hrender, .inl (hblank m (List.mem_singleton_self _))⟩
  | @step past seen v v' now hl hstep ih =>
    obtain ⟨hw, hcalls⟩ := ih fun m hm => hblank m (List.mem_append_left _ hm)
    refine ⟨hstep.written hl.fits hw, fun j call hcall => ?_⟩
    rcases List.mem_append.mp hcall with hcall | hcall
    · obtain ⟨first, content, hfirst, hspec⟩ := hcalls j call hcall
      exact ⟨first, content, List.mem_append_left _ hfirst, hspec⟩
    · -- The message that is tried is the one that was made, and so is its rendering.
      obtain ⟨m, content, hm, hrender, hdelivery⟩ := hstep.called_spec hw hcall
      obtain ⟨first, hfirst⟩ := hl.exists_made hm
      have hsame : first.SameOrigin m := (hl.sameOrigin hfirst).1 m hm
      refine ⟨first, content, List.mem_append_left _ hfirst, ?_, ?_⟩
      · rw [← e₀.render_congr hsame]
        exact hrender
      · rw [hdelivery]
        exact Delivery.ofMessage_congr hsame content

/-! ## Every run -/

namespace Engine

variable {e : Engine}

/-- Whatever is made is the message of a draft. -/
theorem Sound.exists_draft_of_made (h : Sound e₀ e past) {t : Turn} {m : Message}
    (hm : .made m ∈ e.happenings now t) : ∃ (d : Draft) (j : String), m = d.toMessage j now := by
  cases ht : t.isRequest with
  | true =>
    -- A request makes one message at most, that of the draft which it accepts.
    have hreceives := e.turn_receives now ht
    generalize e.happenings now t = hs at hm hreceives
    generalize e.turn now t = e' at hreceives
    cases hreceives with
    | nothing => simp at hm
    | message _ _ d =>
      have heq := Happening.made.inj (List.mem_singleton.mp hm)
      rw [accept_snd] at heq
      exact ⟨d, _, heq⟩
  | false =>
    -- The other turns take a step with each message, and no step makes one.
    obtain ⟨v, hat, hlife⟩ := h.life m.id
    obtain ⟨v', -, hstep⟩ := (turn_moves h now ht).step m.id v hat hlife.fits
    have hmem : .made m ∈ Happening.about m.id (e.happenings now t) :=
      List.mem_filter.mpr ⟨hm, beq_self_eq_true _⟩
    rcases hstep.seen hmem with ⟨_, _, heq⟩ | ⟨_, _, heq⟩ | ⟨_, _, _, heq⟩ | ⟨_, heq⟩ | ⟨_, heq⟩
    all_goals simp at heq

/-- Whatever a run makes is blank. -/
theorem Sound.isBlank_of_history (h : Sound e₀ e past) {turns : List (Instant × Turn)}
    {m : Message} (hm : .made m ∈ e.history turns) : m.IsBlank := by
  induction turns generalizing e past with
  | nil => simp [history] at hm
  | cons t rest ih =>
    rcases List.mem_append.mp hm with hm | hm
    · obtain ⟨d, j, rfl⟩ := h.exists_draft_of_made hm
      exact ⟨rfl, rfl, rfl⟩
    · exact ih (turn_sound h t.1 t.2) hm

/-- A stored message was made, and nothing that was decided then was changed since. -/
theorem Sound.origin (h : Sound e₀ e past) {m : Message} (hm : m ∈ e.messages) :
    (∃ first, .made first ∈ past ∧ first.id = m.id) ∧
      ∀ first, .made first ∈ past → first.id = m.id → first.SameOrigin m := by
  obtain ⟨x, -, hlife⟩ := h.position hm
  constructor
  · obtain ⟨first, hfirst⟩ := hlife.exists_made rfl
    obtain ⟨hmem, hid⟩ := List.mem_filter.mp hfirst
    exact ⟨first, hmem, beq_iff_eq.mp hid⟩
  · intro first hfirst hid
    have hmade : .made first ∈ Happening.about m.id past :=
      List.mem_filter.mpr ⟨hfirst, beq_iff_eq.mpr hid⟩
    exact (hlife.sameOrigin hmade).1 m rfl

/-- The life of an id in a run whose messages were made blank. -/
theorem Sound.written (h : Sound e₀ e past) (hblank : ∀ m, .made m ∈ past → m.IsBlank)
    {v : Position} (hlife : Life e₀ id (Happening.about id past) v) :
    v.Written e₀ ∧ ∀ j call, .called j call ∈ Happening.about id past → ∃ first content,
      .made first ∈ Happening.about id past ∧ e.render first = .ok content ∧
        call.delivery = .ofMessage first content := by
  obtain ⟨hw, hcalls⟩ := hlife.written fun m hm => hblank m (List.mem_filter.mp hm).1
  refine ⟨hw, fun j call hcall => ?_⟩
  obtain ⟨first, content, hfirst, hrender, hdelivery⟩ := hcalls j call hcall
  rw [← render_of_templates h.templates] at hrender
  exact ⟨first, content, hfirst, hrender, hdelivery⟩

/-- What was delivered on the way to an engine, and what it holds, is what was made. -/
structure DeliversAsMade (e : Engine) (past : List Happening) : Prop where
  /-- A stored message was made, and all that was decided then is as it was. -/
  origin : ∀ m ∈ e.messages, (∃ first, .made first ∈ past ∧ first.id = m.id) ∧
    ∀ first, .made first ∈ past → first.id = m.id → first.SameOrigin m
  /-- Nothing was tried before it was rendered, and what is stored is the rendering. -/
  content : ∀ m ∈ e.messages, ∃ content, e.render m = .ok content ∧
    (m.IsBlank ∨ m.HasContent content)
  /-- Each call for a stored message is for its rendering, its address and its context. -/
  calls : ∀ m ∈ e.messages, ∀ call, .called m.id call ∈ past →
    ∃ content, e.render m = .ok content ∧ call.delivery = .ofMessage m content
  /-- So is each call for a message that was forgotten since. -/
  forgotten : ∀ id call, .called id call ∈ past → ∃ first content, .made first ∈ past ∧
    first.id = id ∧ e.render first = .ok content ∧ call.delivery = .ofMessage first content

/-- In every run, each message keeps what was decided when it was made; it is blank and was never
tried, or it has the content that its template gives; and this content, with its address and its
context, is what every call of the deliverer for it carries. -/
theorem run_deliversAsMade (registry : Registry) (templates : TemplateStore)
    (directory : Directory) (policy : Policy) (idSupply : IdSupply)
    (turns : List (Instant × Turn)) :
    ((create registry templates directory policy idSupply).run turns).DeliversAsMade
      ((create registry templates directory policy idSupply).history turns) := by
  have hsound := run_sound registry templates directory policy idSupply turns
  -- From here on nothing is asked of the run but that its messages were made blank.
  have hblank : ∀ m, .made m ∈ (create registry templates directory policy idSupply).history turns →
      m.IsBlank := fun m hm =>
    (create_sound registry templates directory policy idSupply).isBlank_of_history hm
  generalize create registry templates directory policy idSupply = e₀ at hsound hblank ⊢
  generalize e₀.history turns = past at hsound hblank ⊢
  generalize e₀.run turns = e at hsound ⊢
  -- The message may be forgotten by now, so that the call is traced back to the one that was made.
  have hcalled : ∀ id call, .called id call ∈ past → ∃ first content, .made first ∈ past ∧
      first.id = id ∧ e.render first = .ok content ∧
        call.delivery = .ofMessage first content := by
    intro id call hcall
    obtain ⟨v, -, hlife⟩ := hsound.life id
    have habout : .called id call ∈ Happening.about id past :=
      List.mem_filter.mpr ⟨hcall, beq_self_eq_true _⟩
    obtain ⟨first, content, hfirst, hspec⟩ := (hsound.written hblank hlife).2 id call habout
    obtain ⟨hmem, hid⟩ := List.mem_filter.mp hfirst
    exact ⟨first, content, hmem, beq_iff_eq.mp hid, hspec⟩
  refine ⟨fun m hm => hsound.origin hm, fun m hm => ?_, fun m hm call hcall => ?_, hcalled⟩
  · obtain ⟨x, -, hlife⟩ := hsound.position hm
    have hwritten : m.IsWritten e₀ := (hsound.written hblank hlife).1.message m rfl
    unfold Message.IsWritten at hwritten
    rw [← render_of_templates hsound.templates] at hwritten
    exact hwritten
  · -- The message is as it was made, so that the call is for it, too.
    obtain ⟨first, content, hfirst, hid, hrender, hdelivery⟩ := hcalled m.id call hcall
    have hsame : first.SameOrigin m := (hsound.origin hm).2 first hfirst hid
    refine ⟨content, ?_, ?_⟩
    · rw [e.render_congr hsame]
      exact hrender
    · rw [hdelivery]
      exact (Delivery.ofMessage_congr hsame content).symm

end Engine

end Klaxon
