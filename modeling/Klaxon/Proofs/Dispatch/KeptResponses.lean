import Klaxon.Proofs.Dispatch.Endings
import Klaxon.Proofs.Text.Cuts
import Klaxon.Transport.Basic

/-!
# What is kept of an answer

A transport cuts the body of an answer and puts it into a receipt, and the record of the attempt
cuts the text of every receipt. So the log keeps what two cuts leave of a body. That is what one cut
leaves exactly where the body fits or is cut at the limit itself (`Text.cutsAgain`); elsewhere up to
three dots more are kept.

`run_keepsResponses` follows an answer on its way: a transport that posts hands on a receipt for the
answer that it got, the record of a receipt is a success at the end of the log of its message, and
in every run each success that is in the log of a stored message is there because of such a receipt.
-/

namespace Klaxon

/-- An attempt keeps what two cuts leave of an answer. -/
structure Attempt.KeepsResponse (a : Attempt) (r : Http.Response) : Prop where
  responseCode : a.responseCode = some r.status
  twice : a.responseMessage = if r.body.isEmpty then none else
    some (Text.truncate (Text.truncate r.body Text.maxKeptBytes) Text.maxKeptBytes)
  /-- It is what one cut leaves, if the body fits or is cut between two of its characters. -/
  once_iff :
    (a.responseMessage =
      if r.body.isEmpty then none else some (Text.truncate r.body Text.maxKeptBytes)) ↔
    Text.utf8Length r.body.toList ≤ Text.maxKeptBytes ∨
      Text.IsBoundary Text.maxKeptBytes r.body.toList

/-- An attempt succeeded and keeps the receipt of the deliverer. -/
structure Attempt.Keeps (a : Attempt) (receipt : Receipt) : Prop where
  outcome : a.outcome = .success
  responseCode : a.responseCode = receipt.responseCode
  responseMessage : a.responseMessage =
    receipt.responseMessage.map fun s => Text.truncate s Text.maxKeptBytes
  /-- What it keeps if the receipt is for an answer over HTTP. -/
  response : ∀ r : Http.Response, receipt = r.receipt → a.KeepsResponse r

/-- Whether a transport posts what it delivers. -/
def Transport.posts : Transport → Bool
  | .mail .. | .inApp => false
  | .sms _ | .webhook _ | .push _ | .chat _ => true

/-- Every success in a message's log was an answer with a receipt, which it keeps. -/
def Message.KeepsReceipts (m : Message) (past : List Happening) : Prop :=
  ∀ a ∈ m.attempts, a.outcome = .success →
    ∃ receipt, .answered m.id ⟨.ok receipt, a.latencyMs⟩ ∈ past ∧ a.Keeps receipt

/-- What becomes of the answers of providers in a run that led to an engine. -/
structure Engine.KeepsResponses (e : Engine) (past : List Happening) : Prop where
  /-- What a second cut does to any text. -/
  cut : ∀ s limit, Text.CutsAgain s limit
  /-- A transport that posts hands on a receipt for the answer, with its text cut. -/
  posted : ∀ (t : Transport) outside inbox now d receipt, t.posts = true →
    (t.deliver outside inbox now d).2 = .ok receipt →
      ∃ request response, outside.post request = some response ∧ receipt = response.receipt
  /-- A call that ends with a receipt is a success at the end of the log. -/
  taken : ∀ id call, e.callOf? id = some call → ∀ receipt latencyMs now,
    ∃ m a, (e.complete id ⟨.ok receipt, latencyMs⟩ now).message? id = some m ∧
      m.lastAttempt? = some a ∧ a.attemptedAt = call.attemptedAt ∧ a.latencyMs = latencyMs ∧
      a.Keeps receipt
  /-- There is no other success. -/
  kept : ∀ m ∈ e.messages, m.KeepsReceipts past

/-! ## Answers and receipts -/

/-- A receipt holds the body of its answer, cut, unless it is empty. -/
theorem Http.Response.responseMessage_receipt (r : Http.Response) :
    r.receipt.responseMessage =
      if r.body.isEmpty then none else some (Text.truncate r.body Text.maxKeptBytes) := by
  rw [receipt, keptBody, Text.isEmpty_truncate]

/-- An attempt that cuts the text of a receipt keeps its answer, cut twice. -/
theorem Attempt.keepsResponse {a : Attempt} {r : Http.Response}
    (hcode : a.responseCode = r.receipt.responseCode)
    (hmessage : a.responseMessage =
      r.receipt.responseMessage.map fun s => Text.truncate s Text.maxKeptBytes) :
    a.KeepsResponse r := by
  rw [r.responseMessage_receipt] at hmessage
  cases hempty : r.body.isEmpty with
  | true =>
    rw [if_pos hempty, Option.map_none] at hmessage
    refine ⟨hcode, ?_, ?_⟩ <;> rw [if_pos hempty, hmessage]
    exact iff_of_true rfl (.inl (Text.utf8Length_of_isEmpty hempty _))
  | false =>
    have hbody : ¬ r.body.isEmpty = true := by rw [hempty]; exact Bool.false_ne_true
    rw [if_neg hbody, Option.map_some] at hmessage
    refine ⟨hcode, ?_, ?_⟩ <;> rw [if_neg hbody, hmessage]
    -- Whether the second cut changes anything is what `Text.cutsAgain` tells.
    rw [Option.some.injEq]
    exact (Text.cutsAgain r.body Text.maxKeptBytes).same_iff

/-- A success that takes code and text from a receipt keeps it. -/
theorem Attempt.keeps {a : Attempt} {receipt : Receipt} (houtcome : a.outcome = .success)
    (hcode : a.responseCode = receipt.responseCode)
    (hmessage : a.responseMessage =
      receipt.responseMessage.map fun s => Text.truncate s Text.maxKeptBytes) :
    a.Keeps receipt where
  outcome := houtcome
  responseCode := hcode
  responseMessage := hmessage
  response _ hr := Attempt.keepsResponse (hr ▸ hcode) (hr ▸ hmessage)

/-! ## Transports that post -/

/-- The outcome of an answer that went well is its receipt. -/
theorem Http.Response.eq_receipt {r : Http.Response} {service : String} {receipt : Receipt}
    (h : r.outcome service = .ok receipt) : receipt = r.receipt := by
  unfold outcome at h
  split at h
  · exact (Except.ok.inj h).symm
  · split at h <;> nomatch h

/-- An answer to a request was an answer to a post. -/
theorem Outside.exists_post {o : Outside} {r : Http.Request} {response : Http.Response}
    (h : o.request r = .ok response) : ∃ request, o.post request = some response := by
  unfold request at h
  split at h
  · next heq =>
    obtain rfl := Except.ok.inj h
    obtain ⟨request, -, hpost⟩ := Option.bind_eq_some_iff.mp heq
    exact ⟨request, hpost⟩
  · nomatch h

/-- What follows a check gave the result. -/
theorem Engine.ok_of_guard {α ε : Type} {c : Prop} [Decidable c] {error : ε}
    {f : PUnit → Except ε α} {a : α} (h : (if c then throw error >>= f else f ⟨⟩) = .ok a) :
    f ⟨⟩ = .ok a := by
  split at h
  · nomatch h
  · exact h

/-- What ends with the outcome of an answer hands on a receipt for it. -/
theorem Outside.exists_response {o : Outside} {r : Http.Request} {service : String}
    {receipt : Receipt}
    (h : (o.request r >>= fun response => response.outcome service) = .ok receipt) :
    ∃ request response, o.post request = some response ∧ receipt = response.receipt := by
  obtain ⟨response, hresponse, houtcome⟩ := Engine.bind_eq_ok h
  obtain ⟨request, hpost⟩ := Outside.exists_post hresponse
  exact ⟨request, response, hpost, Http.Response.eq_receipt houtcome⟩

section

variable {o : Outside} {d : Delivery} {receipt : Receipt}

/-- A text message that is taken was posted and answered. -/
theorem SmsSettings.exists_response {s : SmsSettings} (h : s.deliver o d = .ok receipt) :
    ∃ request response, o.post request = some response ∧ receipt = response.receipt := by
  simp only [deliver] at h
  exact Outside.exists_response (Engine.ok_of_guard h)

/-- So was a push notification. -/
theorem PushSettings.exists_response {s : PushSettings} (h : s.deliver o d = .ok receipt) :
    ∃ request response, o.post request = some response ∧ receipt = response.receipt := by
  simp only [deliver] at h
  exact Outside.exists_response (Engine.ok_of_guard h)

/-- So was a webhook call. -/
theorem WebhookSettings.exists_response {s : WebhookSettings} (h : s.deliver o d = .ok receipt) :
    ∃ request response, o.post request = some response ∧ receipt = response.receipt := by
  simp only [deliver] at h
  -- The address comes from the message or from the settings, and may be missing in both.
  split at h
  · split at h
    · obtain ⟨_, -, h⟩ := Engine.bind_eq_ok h
      exact Outside.exists_response h
    · obtain ⟨_, herror, -⟩ := Engine.bind_eq_ok h
      nomatch herror
  · obtain ⟨_, -, h⟩ := Engine.bind_eq_ok h
    exact Outside.exists_response h

/-- So was a chat message. -/
theorem ChatSettings.exists_response {s : ChatSettings} {nowMs : Int}
    (h : s.deliver o nowMs d = .ok receipt) :
    ∃ request response, o.post request = some response ∧ receipt = response.receipt := by
  simp only [deliver] at h
  obtain ⟨response, hresponse, h⟩ := Engine.bind_eq_ok h
  obtain ⟨made, hmade, h⟩ := Engine.bind_eq_ok h
  obtain ⟨request, hpost⟩ := Outside.exists_post hresponse
  obtain rfl := Http.Response.eq_receipt hmade
  -- The body of the answer is looked at once more, and may still turn it into an error.
  split at h
  · nomatch h
  · exact ⟨request, response, hpost, (Except.ok.inj h).symm⟩

/-- Whatever a posting transport hands on is the receipt for an answer. -/
theorem Transport.exists_response {t : Transport} {inbox : Inbox} {now : Instant}
    (ht : t.posts = true) (h : (t.deliver o inbox now d).2 = .ok receipt) :
    ∃ request response, o.post request = some response ∧ receipt = response.receipt := by
  cases t with
  | mail => nomatch ht
  | inApp => nomatch ht
  | sms =>
    simp only [deliver] at h
    exact SmsSettings.exists_response h
  | webhook =>
    simp only [deliver] at h
    exact WebhookSettings.exists_response h
  | push =>
    simp only [deliver] at h
    exact PushSettings.exists_response h
  | chat =>
    simp only [deliver] at h
    exact ChatSettings.exists_response h

end

/-! ## The record of a receipt -/

/-- What was answered stays answered. -/
theorem Message.KeepsReceipts.mono {m : Message} {past hs : List Happening}
    (h : m.KeepsReceipts past) (hsub : past ⊆ hs) : m.KeepsReceipts hs := by
  intro a ha hs
  obtain ⟨receipt, hanswered, hkeeps⟩ := h a ha hs
  exact ⟨receipt, hsub hanswered, hkeeps⟩

/-- The log of a message is all that its receipts depend on. -/
theorem Message.KeepsReceipts.of_attempts {m m' : Message} {past : List Happening}
    (h : m.KeepsReceipts past) (hid : m'.id = m.id) (hattempts : m'.attempts = m.attempts) :
    m'.KeepsReceipts past := by
  intro a ha hs
  rw [hid]
  exact h a (hattempts ▸ ha) hs

/-- One more attempt keeps its receipt if it succeeded. -/
theorem Message.KeepsReceipts.concat {m m' : Message} {past : List Happening} {a : Attempt}
    (h : m.KeepsReceipts past) (hid : m'.id = m.id) (hattempts : m'.attempts = m.attempts ++ [a])
    (ha : a.outcome = .success → ∃ receipt,
      .answered m'.id ⟨.ok receipt, a.latencyMs⟩ ∈ past ∧ a.Keeps receipt) :
    m'.KeepsReceipts past := by
  intro b hb hs
  rw [hattempts] at hb
  rcases List.mem_append.mp hb with hb | hb
  · rw [hid]
    exact h b hb hs
  · obtain rfl := List.mem_singleton.mp hb
    exact ha hs

namespace Engine

variable {e₀ e : Engine} {past : List Happening}

/-- The receipt for a message that is being sent is kept at the end of its log. -/
theorem settle_receipt (e : Engine) {m before : Message} (hm : e.message? m.id = some before)
    (hs : m.status = .sending) (channel : Channel) (attemptedAt : Instant) (receipt : Receipt)
    (latencyMs : UInt64) (now : Instant) :
    ∃ m' a, (e.settle m channel attemptedAt ⟨.ok receipt, latencyMs⟩ true now).message? m.id =
        some m' ∧
      m'.attempts = m.attempts ++ [a] ∧ a.attemptedAt = attemptedAt ∧ a.latencyMs = latencyMs ∧
      a.Keeps receipt := by
  -- A message that is being sent lets the success be recorded, so that only one branch is left.
  simp only [settle, settleDelivered, Message.recordSuccess, Message.moveTo, hs, Status.allows,
    if_true, Except.map]
  generalize ha : ({ attemptOf m attemptedAt ⟨.ok receipt, latencyMs⟩ with
    outcome := .success
    responseCode := receipt.responseCode
    responseMessage := receipt.responseMessage.map fun s =>
      Text.truncate s Text.maxKeptBytes } : Attempt) = a
  refine ⟨{ m with
    status := .delivered, attempts := m.attempts ++ [a], deliveredAt := some now }, a, ?_, rfl,
    by rw [← ha]; rfl, by rw [← ha]; rfl, ?_⟩
  · refine (message?_putMessage e _ m.id).trans ?_
    rw [if_pos rfl, hm]
    rfl
  · subst ha
    exact Attempt.keeps rfl rfl rfl

/-- The end of a call that the deliverer answers with a receipt. -/
theorem Sound.complete_receipt (h : Sound e₀ e past) {id : String} {call : Call}
    (hcall : e.callOf? id = some call) (receipt : Receipt) (latencyMs : UInt64) (now : Instant) :
    ∃ m m' a, e.message? id = some m ∧
      (e.complete id ⟨.ok receipt, latencyMs⟩ now).message? id = some m' ∧
      m'.attempts = m.attempts ++ [a] ∧ a.attemptedAt = call.attemptedAt ∧
      a.latencyMs = latencyMs ∧ a.Keeps receipt := by
  obtain ⟨m, hat, rfl, hs, hc, hr⟩ := h.calling hcall
  obtain ⟨spec, hspec⟩ := hr.channel
  obtain ⟨channel, hget, -, -⟩ := get?_of_spec? hspec
  -- The content that is new is put in before the receipt is recorded.
  have hid := (m.sameOrigin_withNewContent call.rendered).id
  have hsending : (withNewContent m call.rendered).status = .sending := by
    cases call.rendered <;> exact hs
  have hput : (e.putMessage (withNewContent m call.rendered)).message?
      (withNewContent m call.rendered).id = some (withNewContent m call.rendered) := by
    rw [message?_putMessage, if_pos rfl, hid, hat.message]
    rfl
  obtain ⟨m', a, hm', hattempts, ha⟩ :=
    settle_receipt _ hput hsending channel call.attemptedAt receipt latencyMs now
  rw [hid] at hm'
  rw [attempts_withNewContent] at hattempts
  refine ⟨m, m', a, hat.message, ?_, hattempts, ha⟩
  unfold complete record
  simp only [hcall, hc, hget, hat.message]
  exact hm'

/-- Only the end of a call is seen as an answer. -/
theorem answered_of_mem {now : Instant} {t : Turn} {id : String} {report : Report}
    (h : .answered id report ∈ e.happenings now t) :
    t = .complete id report ∧ ∃ call, e.callOf? id = some call := by
  cases t with
  | complete j report' =>
    simp only [happenings] at h
    split at h
    · next call hcall =>
      rcases List.mem_cons.mp h with h | h
      · obtain ⟨rfl, rfl⟩ := Happening.answered.inj h
        exact ⟨rfl, call, hcall⟩
      · simp [Engine.recorded] at h
    · simp at h
  | attempt j =>
    simp only [happenings] at h
    split at h
    · rcases List.mem_cons.mp h with h | h
      · simp at h
      · split at h <;> simp [Engine.recorded] at h
    · simp at h
  | cancel j =>
    simp only [happenings] at h
    split at h <;> simp at h
  | offer => simp [happenings] at h
  | sendCustom =>
    simp only [happenings, madeBy] at h
    split at h <;> simp at h
  | sendWebhook =>
    simp only [happenings, madeBy] at h
    split at h <;> simp at h
  | _ => simp [happenings] at h

/-! ## Every run -/

/-- Every success that is stored keeps a receipt. -/
def KeepsReceipts (e : Engine) (past : List Happening) : Prop :=
  ∀ id m, e.message? id = some m → m.KeepsReceipts past

/-- What a turn records of a message keeps the receipt, if the deliverer answered with one. -/
theorem Sound.keepsReceipts_of_settles (h : Sound e₀ e past) {now attemptedAt : Instant}
    {t : Turn} {spec : ChannelSpec} {report : Report} {m m' : Message}
    {content : Option RenderedContent} {timer : Option Timer}
    (hm : e.message? m'.id = some m) (hm' : (e.turn now t).message? m'.id = some m')
    (hid : m'.id = m.id)
    (hset : (withNewContent m content).Settles spec attemptedAt now report m' timer)
    (hseen : (∃ receipt, report.result = .ok receipt) →
      .answered m'.id report ∈ e.happenings now t)
    (hkept : m.KeepsReceipts (past ++ e.happenings now t)) :
    m'.KeepsReceipts (past ++ e.happenings now t) := by
  cases hset with
  | retried hr ha ho =>
    -- Neither a retry nor a failure is a success, so that they keep receipts whatever was answered.
    exact hkept.concat hid (by rw [attempts_withNewContent]) fun hs => by simp [ho] at hs
  | failed hr ha ho =>
    exact hkept.concat hid (by rw [attempts_withNewContent]) fun hs => by simp [ho] at hs
  | @delivered receipt a hr ha ho hd =>
    -- The turn is the end of the call, so that the engine itself shows what it recorded.
    have hanswered := hseen ⟨receipt, hr⟩
    obtain ⟨rfl, call, hcall⟩ := answered_of_mem hanswered
    obtain ⟨result, latencyMs⟩ := report
    obtain rfl : result = .ok receipt := hr
    obtain ⟨before, after, b, hbefore, hafter, hattempts, -, rfl, hkeeps⟩ :=
      h.complete_receipt hcall receipt latencyMs now
    obtain rfl := Option.some.inj (hm.symm.trans hbefore)
    obtain rfl := Option.some.inj (hm'.symm.trans hafter)
    exact hkept.concat hid hattempts fun _ =>
      ⟨receipt, List.mem_append_right past hanswered, hkeeps⟩

/-- A turn keeps the receipts that are kept, and adds none that was not answered. -/
theorem KeepsReceipts.turn (hkept : e.KeepsReceipts past) (h : Sound e₀ e past) (now : Instant)
    (t : Turn) : (e.turn now t).KeepsReceipts (past ++ e.happenings now t) := by
  intro id m' hm'
  have hmono : ∀ m, e.message? id = some m → m.KeepsReceipts (past ++ e.happenings now t) :=
    fun m hm => (hkept id m hm).mono (List.subset_append_left _ _)
  obtain ⟨v, hat, hlife⟩ := h.life id
  cases ht : t.isRequest with
  | true =>
    rcases h.receives_at (e.turn_receives now ht) id with
      ⟨hagrees, -⟩ | ⟨d, -, -, -, hmade⟩
    · exact hmono m' (hagrees.message.symm.trans hm')
    · obtain rfl := Option.some.inj (hm'.symm.trans hmade.message)
      intro a ha
      simp [Draft.toMessage] at ha
  | false =>
    obtain ⟨v', hat', hstep⟩ := (turn_moves h now ht).step id v hat hlife.fits
    have hv' : v'.message = some m' := hat'.message.symm.trans hm'
    obtain ⟨m, hv, hcourse⟩ := hstep.course hlife.fits hv'
    have hm : e.message? id = some m := hat.message.trans hv
    have hid' : m'.id = id := ((hstep.fits hlife.fits).stored m' hv').1
    have hid : m'.id = m.id := hid'.trans (hlife.fits.stored m hv).1.symm
    -- What a step does with a message is one of four courses; only a settled one adds an attempt.
    generalize hseen : Happening.about id (e.happenings now t) = seen at hcourse
    cases hcourse with
    | kept => exact hmono _ hm
    | claimed => exact (hmono m hm).of_attempts rfl rfl
    | cancelled => exact (hmono m hm).of_attempts rfl rfl
    | settled _ _ _ hset hx =>
      subst hid'
      refine h.keepsReceipts_of_settles hm hm' hid hset ?_ (hmono m hm)
      rintro ⟨receipt, hok⟩
      rcases hx with rfl | ⟨_, -, hlimited⟩
      · have hmem : .answered m'.id _ ∈ Happening.about m'.id (e.happenings now t) :=
          hseen ▸ List.mem_cons_self
        exact (List.mem_filter.mp hmem).1
      · simp [hok] at hlimited

/-- So does every run. -/
theorem KeepsReceipts.run (hkept : e.KeepsReceipts past) (h : Sound e₀ e past)
    (turns : List (Instant × Turn)) :
    (e.run turns).KeepsReceipts (past ++ e.history turns) := by
  induction turns generalizing e past with
  | nil =>
    simp only [Engine.run, history, List.append_nil]
    exact hkept
  | cons t rest ih =>
    have hnext := ih (hkept.turn h t.1 t.2) (turn_sound h t.1 t.2)
    simp only [Engine.run, history]
    rw [← List.append_assoc]
    exact hnext

/-- What is kept of the answers of providers, in every run. -/
theorem run_keepsResponses (registry : Registry) (templates : TemplateStore)
    (directory : Directory) (policy : Policy) (idSupply : IdSupply)
    (turns : List (Instant × Turn)) :
    ((create registry templates directory policy idSupply).run turns).KeepsResponses
      ((create registry templates directory policy idSupply).history turns) where
  cut := Text.cutsAgain
  posted _ _ _ _ _ _ ht h := Transport.exists_response ht h
  taken id call hcall receipt latencyMs now := by
    have hsound := run_sound registry templates directory policy idSupply turns
    obtain ⟨m, m', a, -, hm', hattempts, hbegun, hlatency, hkeeps⟩ :=
      hsound.complete_receipt hcall receipt latencyMs now
    refine ⟨m', a, hm', ?_, hbegun, hlatency, hkeeps⟩
    rw [Message.lastAttempt?, hattempts, List.getLast?_concat]
  kept m hm := by
    have hsound := run_sound registry templates directory policy idSupply turns
    have hnone : (create registry templates directory policy idSupply).KeepsReceipts [] :=
      fun id m hm => by simp [create, message?] at hm
    have hkept := hnone.run (create_sound registry templates directory policy idSupply) turns
    exact hkept m.id m (message?_of_mem hsound.nodup hm)

end Engine

end Klaxon
