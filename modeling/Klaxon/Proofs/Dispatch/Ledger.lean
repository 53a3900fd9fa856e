import Klaxon.Proofs.Dispatch.Conservation
import Klaxon.Proofs.Dispatch.Endings
import Klaxon.Proofs.Dispatch.Frame
import Klaxon.Proofs.Dispatch.RecentMilestones
import Klaxon.Proofs.Dispatch.Timeliness

/-!
# The ledger of a run

The ledger has an entry for each milestone that a message reached in a run, in the order in which
they were recorded (`Engine.ledger`). The statistics remember the end of it, and all of it that is
less than a day old at the end of the run (`run_entered`).

A first attempt is recorded with the time of its claim, and other turns may come in between. So the
ledger is not in the order of time, but an outcome is no earlier than what was recorded before it
(`Engine.Entered.ordered`), and that is what `Statistics.lt_of_mem_dropWhile` asks for. What the
entries of one message are is known from its life: it has one outcome at most, and none without a
first attempt (`Sound.nodup_outcomes`, `Sound.sent_of_outcome`).
-/

namespace Klaxon

/-- A milestone of a message, with the time that the statistics keep of it. -/
structure Entry where
  messageId : String
  milestone : Milestone
  time : Instant
  deriving DecidableEq

namespace Entry

/-- What the statistics keep of an entry. -/
def stamp (x : Entry) : Instant × Milestone := (x.time, x.milestone)

/-- The message is over with the entry. -/
def isOutcome (x : Entry) : Bool := x.milestone != .sent

end Entry

/-- The entry of a moment. A first attempt counts from the claim of its message on. -/
def Moment.entered? : Moment → Option Entry
  | .made _ => none
  | .begun m attemptedAt => if m.attempts.isEmpty then some ⟨m.id, .sent, attemptedAt⟩ else none
  | .recorded m now => (Milestone.ofStatus? m.status).map fun k => ⟨m.id, k, now⟩

/-- The record of an attempt is no first attempt. -/
theorem Milestone.ne_sent_of_ofStatus? {s : Status} {k : Milestone} (h : ofStatus? s = some k) :
    k ≠ .sent := by
  rintro rfl
  cases s <;> simp [ofStatus?] at h

/-- A message with an outcome is over. -/
theorem Milestone.isTerminal_of_ofStatus? {s : Status} {k : Milestone} (h : ofStatus? s = some k) :
    s.isTerminal = true := by
  cases s <;> simp [ofStatus?, Status.isTerminal] at h ⊢

namespace Engine

/-- The entries of a turn. -/
def entriesOf (e : Engine) (now : Instant) (t : Turn) : List Entry :=
  (e.momentsOf now t).filterMap Moment.entered?

/-- The entries of a run. -/
def ledger (e : Engine) (turns : List (Instant × Turn)) : List Entry :=
  (e.moments turns).filterMap Moment.entered?

/-- The ledger of a run is that of its first turn and that of the rest. -/
theorem ledger_cons (e : Engine) (u : Instant × Turn) (rest : List (Instant × Turn)) :
    e.ledger (u :: rest) = e.entriesOf u.1 u.2 ++ (e.turn u.1 u.2).ledger rest :=
  List.filterMap_append

/-- What is recorded of the outcome that the message of an id has reached, if it has reached one. -/
def outcomeAt (e : Engine) (id : String) (now : Instant) : List (Instant × Milestone) :=
  ((e.message? id).bind fun m => Milestone.ofStatus? m.status).toList.map fun k => (now, k)

/-- The outcome at an id is that of the message that is found there. -/
theorem outcomeAt_of_message? {e : Engine} {id : String} {m : Message}
    (hm : e.message? id = some m) (now : Instant) :
    e.outcomeAt id now = (Milestone.ofStatus? m.status).toList.map fun k => (now, k) := by
  unfold outcomeAt
  rw [hm]
  rfl

/-! ## What attempts record -/

section

variable {now : Instant}

/-- A message that is put back is found. -/
theorem message?_putMessage_of_id {e : Engine} {m before : Message} {id : String} (hid : m.id = id)
    (hm : e.message? id = some before) : (e.putMessage m).message? id = some m := by
  rw [message?_putMessage, if_pos hid.symm, hm]
  rfl

/-- A message that is to be retried waits. -/
theorem exists_settleRetry (e : Engine) {m : Message} (hs : m.status = .sending) (a : Attempt)
    (delayMs : UInt64) (now : Instant) :
    ∃ (m' : Message) (t : Option Timer), m'.id = m.id ∧ m'.status = .queued ∧
      e.settleRetry m a delayMs now = e.withRecord m' t := by
  refine ⟨_, _, ?_, ?_, e.settleRetry_eq hs a delayMs now⟩
  · rfl
  · rfl

/-- To blame a channel leaves the statistics as they are. -/
theorem statistics_blame (e : Engine) (channelId : String) (error : DispatchError) :
    (e.blame channelId error).statistics = e.statistics := by
  unfold blame
  split <;> rfl

/-- A milestone that is marked is recorded. -/
theorem records_mark (e : Engine) (m : Message) (k : Milestone) (latencyMs : UInt64)
    {reachedAt : Instant} (hle : reachedAt ≤ now) :
    Statistics.Records e.statistics (e.mark m k latencyMs reachedAt).statistics [(reachedAt, k)]
      (now.sub Time.day) :=
  .record e.statistics k m.priority (k.count latencyMs) hle

/-- A milestone that a message reaches with its status is recorded. -/
theorem records_mark_putMessage (e : Engine) {m m' before : Message} (hid : m'.id = m.id)
    (hm : e.message? m.id = some before) {k : Milestone}
    (hk : Milestone.ofStatus? m'.status = some k) (latencyMs : UInt64) (now : Instant) :
    Statistics.Records e.statistics ((e.putMessage m').mark m' k latencyMs now).statistics
      (((e.putMessage m').mark m' k latencyMs now).outcomeAt m.id now) (now.sub Time.day) := by
  have hfound : ((e.putMessage m').mark m' k latencyMs now).message? m.id = some m' :=
    ((alike_mark _ m' k latencyMs now).agrees m.id).message.trans
      (message?_putMessage_of_id hid hm)
  rw [outcomeAt_of_message? hfound, hk]
  exact (e.putMessage m').records_mark m' k latencyMs (Int.le_refl _)

/-- The outcome of an attempt at a message that is being sent is recorded. -/
theorem records_settle (e : Engine) {m before : Message} (hm : e.message? m.id = some before)
    (hs : m.status = .sending) {channel : Channel} (hchannel : channel.id = m.channelId)
    (attemptedAt : Instant) (report : Report) (now : Instant) :
    Statistics.Records e.statistics (e.settle m channel attemptedAt report true now).statistics
      ((e.settle m channel attemptedAt report true now).outcomeAt m.id now)
      (now.sub Time.day) := by
  unfold settle
  rw [hchannel]
  cases report.result with
  | ok receipt =>
    obtain ⟨m', a, hm', -, -, -, -, heq⟩ :=
      e.settleDelivered_eq hs (attemptOf m attemptedAt report) receipt now
    have hid : m'.id = m.id := by rw [hm']
    simp only [heq]
    exact e.records_mark_putMessage hid hm (by rw [hm']; rfl) a.latencyMs now
  | error error =>
    simp only [Bool.true_and]
    -- To blame the channel records nothing.
    have hm₁ := ((e.alike_blame m.channelId error).agrees m.id).message.trans hm
    rw [← e.statistics_blame m.channelId error]
    generalize e.blame m.channelId error = e₁ at hm₁
    split
    · obtain ⟨m', t, hid, hstatus, heq⟩ := e₁.exists_settleRetry hs
        { attemptOf m attemptedAt report with
          responseCode := error.status?, error := some error.message }
        (channel.spec.retryPolicy.delayFor (attemptOf m attemptedAt report).number) now
      have hfound : (e₁.withRecord m' t).message? m.id = some m' :=
        message?_putMessage_of_id hid hm₁
      -- The message waits again, which is no milestone.
      rw [heq, outcomeAt_of_message? hfound, hstatus]
      exact .of_recent_eq rfl
    · obtain ⟨m', hm', heq⟩ := e₁.settleFailed_eq hs
        { attemptOf m attemptedAt report with
          responseCode := error.status?, error := some error.message } now
      have hid : m'.id = m.id := by rw [hm']
      rw [heq]
      exact e₁.records_mark_putMessage hid hm₁ (by rw [hm']; rfl) 0 now

/-- The same with the content that is new. -/
theorem records_record (e : Engine) {m : Message} (hm : e.message? m.id = some m)
    (hs : m.status = .sending) {channel : Channel} (hchannel : channel.id = m.channelId)
    (attemptedAt : Instant) (content : Option RenderedContent) (report : Report) (now : Instant) :
    Statistics.Records e.statistics
      (e.record m.id channel attemptedAt content report true now).statistics
      ((e.record m.id channel attemptedAt content report true now).outcomeAt m.id now)
      (now.sub Time.day) := by
  have hsame := m.sameOrigin_withNewContent content
  have hstatus : (withNewContent m content).status = .sending := by cases content <;> exact hs
  have hput : (e.putMessage (withNewContent m content)).message? (withNewContent m content).id =
      some (withNewContent m content) := by
    rw [hsame.id]
    exact message?_putMessage_of_id hsame.id hm
  rw [← hsame.channelId] at hchannel
  have hsettle := records_settle _ hput hstatus hchannel attemptedAt report now
  rw [hsame.id] at hsettle
  unfold record
  rw [hm]
  exact hsettle

/-- A first attempt is recorded with the time of its claim. -/
theorem records_countFirst (e : Engine) (m : Message) {attemptedAt : Instant}
    (hle : attemptedAt ≤ now) :
    Statistics.Records e.statistics (e.countFirst m m.channelId attemptedAt).statistics
      (((Moment.begun m attemptedAt).entered?.map Entry.stamp).toList) (now.sub Time.day) := by
  rw [countFirst_eq, Moment.entered?]
  -- Both the milestone and its entry hang on whether the log is empty.
  by_cases hfirst : m.attempts.isEmpty = true
  · rw [if_pos hfirst, if_pos hfirst]
    exact e.records_mark m .sent 0 hle
  · rw [if_neg hfirst, if_neg hfirst]
    exact .of_recent_eq rfl

/-- The begin of an attempt records a first attempt, and its outcome if the attempt is over. -/
theorem records_attempt (e : Engine) {m : Message} (hm : e.message? m.id = some m)
    (hs : m.status = .sending) (hr : e.Routes m) {attemptedAt : Instant}
    (hle : attemptedAt ≤ now) :
    Statistics.Records e.statistics (e.attempt m attemptedAt now).1.statistics
      (((Moment.begun m attemptedAt).entered?.map Entry.stamp).toList ++
        match e.attempt m attemptedAt now with
        | (_, some _) => []
        | (after, none) => after.outcomeAt m.id now) (now.sub Time.day) := by
  obtain ⟨spec, hspec⟩ := hr.channel
  obtain ⟨channel, hget, -, hid⟩ := get?_of_spec? hspec
  obtain ⟨content, rendered, hcontent⟩ := hr.contentOf
  have hcount := e.alike_countFirst m attemptedAt
  have hfirst := e.records_countFirst m hle
  have halike := hcount.trans (alike_modifyChannel _ m.channelId
    fun c => spec_tryAcquire c attemptedAt)
  unfold attempt
  simp only [hget, hid, contentOf_congr hcount.templates, hcontent]
  cases (channel.tryAcquire attemptedAt).2 with
  | true =>
    -- The deliverer is called, and its answer is another turn.
    simp only [if_true, List.append_nil]
    exact hfirst
  | false =>
    have hm₁ := (halike.agrees m.id).message.trans hm
    have hrecord := records_record _ hm₁ hs hid attemptedAt rendered
      ⟨.error (.rateLimited m.channelId), 0⟩ now
    simp only [Bool.false_eq_true, if_false]
    exact hfirst.trans hrecord

end

/-! ## What turns record -/

section

variable {e₀ e : Engine} {past : List Happening} {now : Instant} {t : Turn}

/-- A claim that is under way is past. -/
theorem Dated.claimed (h : e.Dated past now) (hsound : Sound e₀ e past) {id : String} {m : Message}
    {attemptedAt : Instant} (hstage : e.stage? id = some (.claimed m attemptedAt)) :
    attemptedAt ≤ now :=
  (h id _ (hsound.claimed hstage).1).started _ rfl fun hidle => hidle

/-- What is recorded of happenings that were seen in an engine. -/
def stampsIn (e : Engine) (hs : List Happening) : List (Instant × Milestone) :=
  ((hs.filterMap fun x => x.moment? (e.stage? x.messageId)).filterMap
    Moment.entered?).map Entry.stamp

/-- What is recorded of happenings is recorded one after the other. -/
theorem stampsIn_cons (e : Engine) (x : Happening) (hs : List Happening) :
    e.stampsIn (x :: hs) =
      (((x.moment? (e.stage? x.messageId)).bind Moment.entered?).map Entry.stamp).toList ++
        e.stampsIn hs := by
  unfold stampsIn
  rw [List.filterMap_cons]
  cases x.moment? (e.stage? x.messageId) with
  | none => rfl
  | some y =>
    rw [List.filterMap_cons, Option.bind_some]
    cases y.entered? <;> rfl

/-- What is recorded of an attempt that is over. -/
theorem stampsIn_recorded (e after : Engine) (id : String) (now : Instant) :
    e.stampsIn (after.recorded id now) = after.outcomeAt id now := by
  unfold stampsIn recorded outcomeAt
  cases after.message? id with
  | none => rfl
  | some m =>
    cases hk : Milestone.ofStatus? m.status <;>
      simp [Happening.moment?, Moment.entered?, hk, Entry.stamp]

/-- The turn of an attempt records what is seen in it. -/
theorem Sound.records_attempt (h : Sound e₀ e past) (hdated : e.Dated past now) (id : String) :
    Statistics.Records e.statistics (e.turn now (.attempt id)).statistics
      (e.stampsIn (e.happenings now (.attempt id))) (now.sub Time.day) := by
  simp only [turn, happenings]
  cases hstage : e.stage? id with
  | none => exact .of_recent_eq rfl
  | some s =>
    cases s with
    | pulled | calling => exact .of_recent_eq rfl
    | claimed m attemptedAt =>
      obtain ⟨hat, rfl, hs, hr⟩ := h.claimed hstage
      have hrecords := e.records_attempt hat.message hs hr (hdated.claimed h hstage)
      -- The moment takes its time from the stage, which is that of the claim.
      have hbegun : (Happening.begun m).moment? (e.stage? (Happening.begun m).messageId) =
          some (.begun m attemptedAt) := by
        rw [show e.stage? (Happening.begun m).messageId = _ from hstage]
        rfl
      rw [stampsIn_cons, hbegun, Option.bind_some]
      dsimp only
      generalize e.attempt m attemptedAt now = attempted at hrecords
      obtain ⟨after, call⟩ := attempted
      cases call with
      | some call => exact hrecords
      | none =>
        dsimp only
        rw [stampsIn_recorded]
        exact hrecords

/-- So does the end of a call. -/
theorem Sound.records_complete (h : Sound e₀ e past) (now : Instant) (id : String)
    (report : Report) :
    Statistics.Records e.statistics (e.turn now (.complete id report)).statistics
      (e.stampsIn (e.happenings now (.complete id report))) (now.sub Time.day) := by
  simp only [turn, happenings]
  cases hcall : e.callOf? id with
  | none =>
    simp only [complete, hcall]
    exact .of_recent_eq rfl
  | some call =>
    obtain ⟨m, hat, rfl, hs, hc, hr⟩ := h.calling hcall
    obtain ⟨spec, hspec⟩ := hr.channel
    obtain ⟨channel, hget, -, hid⟩ := get?_of_spec? hspec
    simp only [stampsIn_cons, stampsIn_recorded, complete, hcall, hc, hget]
    exact e.records_record hat.message hs hid call.attemptedAt call.rendered report now

/-- A turn that records nothing has no entries. -/
theorem entriesOf_eq_nil (e : Engine) (now : Instant) (ht : t.mayRecord = false) :
    e.entriesOf now t = [] := by
  unfold entriesOf momentsOf
  cases hrequest : t.isRequest with
  | true =>
    -- It may make a message, and that is no milestone.
    have hreceives := e.turn_receives now hrequest
    generalize e.happenings now t = hs at hreceives
    generalize e.turn now t = e' at hreceives
    cases hreceives <;> rfl
  | false =>
    cases t with
    | cancel id =>
      simp only [happenings]
      cases (e.cancel id).2 <;> rfl
    | prune | pull | claim | fire | setDirectory => rfl
    | offer | holdBack | sendCustom | sendWebhook => simp [Turn.isRequest] at hrequest
    | attempt | complete | report | markUnhealthy | restore => simp [Turn.mayRecord] at ht

/-- A turn records its entries. -/
theorem Sound.records_turn (h : Sound e₀ e past) (hdated : e.Dated past now) (t : Turn) :
    Statistics.Records e.statistics (e.turn now t).statistics
      ((e.entriesOf now t).map Entry.stamp) (now.sub Time.day) := by
  cases t with
  | attempt id => exact h.records_attempt hdated id
  | complete id report => exact h.records_complete now id report
  | report => exact .prune e.statistics (Int.le_refl _)
  | markUnhealthy | restore => exact .of_recent_eq rfl
  | offer | holdBack | sendCustom | sendWebhook | cancel | prune | pull | claim | fire
    | setDirectory =>
    rw [e.entriesOf_eq_nil now rfl]
    exact .of_recent_eq (e.turn_unrecorded now rfl).recent

end

end Engine

/-! ## The order of entries -/

section

variable {e₀ : Engine} {id : String} {now : Instant} {past hs : List Happening} {v v' : Position}

/-- An attempt begins at a message that was claimed. -/
theorem Step.claimed_of_begun (h : Step e₀ id now v hs v') {m : Message}
    (hm : .begun m ∈ hs) : ∃ m' attemptedAt, v.stage? = some (.claimed m' attemptedAt) := by
  cases h with
  | called => exact ⟨_, _, rfl⟩
  | refused => exact ⟨_, _, rfl⟩
  | _ => simp at hm

/-- An entry of a step is past, and an outcome is of the time of the step. -/
theorem Step.time_of_entered? (h : Step e₀ id now v hs v') (hv : v.Dated past now) {x : Happening}
    (hx : x ∈ hs) {y : Moment} (hy : x.moment? v.stage? = some y) {z : Entry}
    (hz : y.entered? = some z) : z.time ≤ now ∧ (z.isOutcome = true → z.time = now) := by
  rcases h.seen hx with ⟨m, -, rfl⟩ | ⟨m, -, rfl⟩ | ⟨m, -, -, rfl⟩ | ⟨_, rfl⟩ | ⟨_, rfl⟩
  · -- The begin of an attempt is entered with the time of its claim, which is past.
    obtain ⟨m', attemptedAt, hstage⟩ := h.claimed_of_begun hx
    have hpast : attemptedAt ≤ now := by
      unfold Position.stage? at hstage
      split at hstage
      · next hhandle =>
        obtain rfl := Option.some.inj hstage
        exact hv.started _ hhandle fun hidle => hidle
      · cases hstage
    rw [hstage] at hy
    obtain rfl := Option.some.inj hy
    rw [Moment.entered?] at hz
    split at hz
    · obtain rfl := Option.some.inj hz
      exact ⟨hpast, fun ho => by simp [Entry.isOutcome] at ho⟩
    · cases hz
  · -- The record of an attempt is entered with the time of the step.
    obtain rfl := Option.some.inj hy
    obtain ⟨k, -, rfl⟩ := Option.map_eq_some_iff.mp hz
    exact ⟨Int.le_refl _, fun _ => rfl⟩
  all_goals cases hy

end

namespace Engine

section

variable {e₀ e : Engine} {past : List Happening} {now : Instant} {t : Turn}

/-- What is seen in a turn is that a message was made, or is seen of a step. -/
theorem Sound.step_of_mem (h : Sound e₀ e past) {x : Happening} (hx : x ∈ e.happenings now t) :
    (∃ m, x = .made m) ∨
    ∃ v v' hs, e.At x.messageId v ∧ Step e₀ x.messageId now v hs v' ∧ x ∈ hs := by
  cases ht : t.isRequest with
  | true =>
    have hreceives := e.turn_receives now ht
    generalize e.happenings now t = hs at hreceives hx
    generalize e.turn now t = e' at hreceives
    cases hreceives with
    | nothing => cases hx
    | message => exact .inl ⟨_, List.mem_singleton.mp hx⟩
  | false =>
    obtain ⟨v, hat, hlife⟩ := h.life x.messageId
    obtain ⟨v', -, hstep⟩ := (turn_moves h now ht).step _ v hat hlife.fits
    exact .inr ⟨v, v', _, hat, hstep, List.mem_filter.mpr ⟨hx, beq_self_eq_true _⟩⟩

/-- The entries of a turn are past, and its outcomes are of the time of the turn. -/
theorem Sound.time_of_mem_entriesOf (h : Sound e₀ e past) (hdated : e.Dated past now) {z : Entry}
    (hz : z ∈ e.entriesOf now t) : z.time ≤ now ∧ (z.isOutcome = true → z.time = now) := by
  obtain ⟨y, hy, hz⟩ := List.mem_filterMap.mp hz
  obtain ⟨x, hx, hy⟩ := List.mem_filterMap.mp hy
  rcases h.step_of_mem hx with ⟨m, rfl⟩ | ⟨v, v', hs, hat, hstep, hx⟩
  · obtain rfl := Option.some.inj hy
    cases hz
  · rw [hat.stage?_eq] at hy
    exact hstep.time_of_entered? (hdated _ v hat) hx hy hz

/-- The statistics remember the end of what was entered, and all of it that is less than a day old.
No outcome is earlier than what was entered before it. -/
structure Entered (e : Engine) (entries : List Entry) (now : Instant) : Prop where
  remembers : Statistics.Remembers e.statistics.recent (entries.map Entry.stamp)
    (now.sub Time.day)
  past : ∀ x ∈ entries, x.time ≤ now
  ordered : entries.Pairwise fun x y => y.isOutcome = true → x.time ≤ y.time

/-- Time goes on. -/
theorem Entered.mono {entries : List Entry} {now' : Instant} (h : e.Entered entries now)
    (hnow : now ≤ now') : e.Entered entries now' where
  remembers := by
    obtain ⟨old, hsplit, hold⟩ := h.remembers
    exact ⟨old, hsplit, fun x hx => Int.le_trans (hold x hx) (Int.sub_le_sub_right hnow _)⟩
  past x hx := Int.le_trans (h.past x hx) hnow
  ordered := h.ordered

/-- A turn enters its entries. -/
theorem Entered.turn {entries : List Entry} (h : e.Entered entries now) (hsound : Sound e₀ e past)
    (hdated : e.Dated past now) (t : Turn) :
    (e.turn now t).Entered (entries ++ e.entriesOf now t) now where
  remembers := by
    rw [List.map_append]
    exact hsound.records_turn hdated t _ h.remembers
  past x hx := by
    rcases List.mem_append.mp hx with hx | hx
    · exact h.past x hx
    · exact (hsound.time_of_mem_entriesOf hdated hx).1
  ordered := by
    -- An outcome of the turn has the time of the turn, and nothing is later than that.
    refine List.pairwise_append.mpr ⟨h.ordered, List.pairwise_of_forall_mem_list ?_, ?_⟩
    · intro x hx y hy ho
      rw [(hsound.time_of_mem_entriesOf hdated hy).2 ho]
      exact (hsound.time_of_mem_entriesOf hdated hx).1
    · intro x hx y hy ho
      rw [(hsound.time_of_mem_entriesOf hdated hy).2 ho]
      exact h.past x hx

/-- A run enters its ledger. -/
theorem Entered.run {entries : List Entry} {turns : List (Instant × Turn)} {last : Instant}
    (h : e.Entered entries now) (hsound : Sound e₀ e past) (hdated : e.Dated past now)
    (hclock : (now :: (turns.map Prod.fst ++ [last])).Pairwise (· ≤ ·)) :
    (e.run turns).Entered (entries ++ e.ledger turns) last := by
  obtain ⟨hnow, hrest⟩ := List.pairwise_cons.mp hclock
  -- The clock is part of the induction: each turn is no earlier than the one before it.
  induction turns generalizing e past now entries with
  | nil =>
    rw [show e.ledger [] = [] from rfl, List.append_nil]
    exact h.mono (hnow last (List.mem_singleton_self last))
  | cons u rest ih =>
    have hle : now ≤ u.1 := hnow u.1 List.mem_cons_self
    have hdated' : e.Dated past u.1 := fun id v hat => (hdated id v hat).mono hle
    rw [ledger_cons, ← List.append_assoc]
    exact ih ((h.mono hle).turn hsound hdated' u.2) (turn_sound hsound u.1 u.2)
      (hdated.turn hsound hle u.2) hrest (List.pairwise_cons.mp hrest).1
      (List.pairwise_cons.mp hrest).2

end

/-- A run whose clock does not go back enters its ledger. -/
theorem run_entered (registry : Registry) (templates : TemplateStore) (directory : Directory)
    (policy : Policy) (idSupply : IdSupply) {turns : List (Instant × Turn)} {now : Instant}
    (hclock : (turns.map Prod.fst ++ [now]).Pairwise (· ≤ ·)) :
    ((create registry templates directory policy idSupply).run turns).Entered
      ((create registry templates directory policy idSupply).ledger turns) now := by
  have hstart := create_sound registry templates directory policy idSupply
  have hnowhere := create_at registry templates directory policy idSupply
  have hempty (first : Instant) :
      (create registry templates directory policy idSupply).Entered [] first :=
    ⟨.refl [] _, fun _ hx => absurd hx List.not_mem_nil, .nil⟩
  generalize create registry templates directory policy idSupply = e₀ at *
  have hdated (first : Instant) : e₀.Dated [] first := fun id v hat => by
    obtain rfl := hat.unique (hnowhere id)
    exact Position.dated_nowhere _ first
  -- The clock starts with the first turn, or with the end of the run if there is no turn.
  obtain ⟨first, hclock⟩ :
      ∃ first, (first :: (turns.map Prod.fst ++ [now])).Pairwise (· ≤ ·) := by
    cases htimes : turns.map Prod.fst ++ [now] with
    | nil => simp at htimes
    | cons first rest =>
      rw [htimes] at hclock
      refine ⟨first, List.pairwise_cons.mpr ⟨fun t ht => ?_, hclock⟩⟩
      rcases List.mem_cons.mp ht with rfl | ht
      · exact Int.le_refl _
      · exact (List.pairwise_cons.mp hclock).1 t ht
  exact (hempty first).run hstart (hdated first) hclock

end Engine

/-! ## The entries of a message -/

/-- The outcome that is recorded, as an entry. -/
def Happening.outcome? : Happening → Option Entry
  | .recorded m now => (Milestone.ofStatus? m.status).map fun k => ⟨m.id, k, now⟩
  | _ => none

namespace Happening

variable {x : Happening} {z : Entry}

/-- The entries of a happening that are outcomes. -/
theorem filter_isOutcome (x : Happening) (s : Option Stage) :
    ((x.moment? s).bind Moment.entered?).filter Entry.isOutcome = x.outcome? := by
  cases x with
  | begun m =>
    simp only [moment?, outcome?]
    split
    · rw [Option.bind_some, Moment.entered?]
      split <;> rfl
    · rfl
  | recorded m now =>
    simp only [moment?, outcome?, Option.bind_some, Moment.entered?]
    cases hk : Milestone.ofStatus? m.status with
    | none => rfl
    | some k => simp [Entry.isOutcome, Milestone.ne_sent_of_ofStatus? hk]
  | _ => rfl

/-- An outcome is the end of its message, which reaches a milestone with it. -/
theorem of_outcome? (h : x.outcome? = some z) :
    x.messageId = z.messageId ∧ x.isEnd = true ∧ x.reaches z.milestone .all = true := by
  cases x with
  | recorded m now =>
    obtain ⟨k, hk, rfl⟩ := Option.map_eq_some_iff.mp h
    refine ⟨rfl, Milestone.isTerminal_of_ofStatus? hk, ?_⟩
    simp [reaches, milestone?, hk, View.sees]
  | _ => cases h

/-- A message is sent with the begin of its first attempt. -/
theorem begun_of_reaches_sent (h : x.reaches .sent .all = true) :
    ∃ m, x = .begun m ∧ m.attempts.isEmpty = true := by
  cases x with
  | begun m =>
    refine ⟨m, rfl, ?_⟩
    simp only [reaches, milestone?] at h
    split at h
    · assumption
    · cases h
  | recorded m now => rw [reaches_sent_recorded] at h; cases h
  | _ => cases h

end Happening

namespace Engine

variable {e₀ e : Engine} {past : List Happening} {turns : List (Instant × Turn)}

/-- The outcomes of a ledger are those of the history. -/
theorem filter_isOutcome_ledger (e : Engine) (turns : List (Instant × Turn)) :
    (e.ledger turns).filter Entry.isOutcome =
      (e.history turns).filterMap Happening.outcome? := by
  induction turns generalizing e with
  | nil => rfl
  | cons u rest ih =>
    -- Turn by turn, since both lists are made of what is seen in the turns.
    have hturn : (e.entriesOf u.1 u.2).filter Entry.isOutcome =
        (e.happenings u.1 u.2).filterMap Happening.outcome? := by
      unfold entriesOf momentsOf
      rw [List.filterMap_filterMap, List.filter_filterMap]
      exact List.filterMap_congr fun x _ => x.filter_isOutcome _
    rw [ledger_cons, List.filter_append, ih, hturn, ← List.filterMap_append]
    rfl

/-- A message has one outcome at most. -/
theorem Sound.nodup_outcomes (h : Sound e₀ e past) :
    ((past.filterMap Happening.outcome?).map Entry.messageId).Nodup := by
  unfold List.Nodup
  rw [List.pairwise_map, List.pairwise_filterMap]
  refine h.pairwise_isEnd.imp fun {x y} hxy z hz z' hz' he => ?_
  obtain ⟨hid, hend, -⟩ := Happening.of_outcome? hz
  obtain ⟨hid', -, -⟩ := Happening.of_outcome? hz'
  -- Of two outcomes of one message the first would not be its end.
  rw [hxy (hid.trans (he.trans hid'.symm))] at hend
  cases hend

/-- An attempt that begins has a moment. -/
theorem Sound.exists_begun_moment (h : Sound e₀ e past) {m : Message}
    (hm : .begun m ∈ e.history turns) : ∃ attemptedAt, .begun m attemptedAt ∈ e.moments turns := by
  induction turns generalizing e past with
  | nil => cases hm
  | cons u rest ih =>
    rcases List.mem_append.mp hm with hm | hm
    · rcases h.step_of_mem hm with ⟨_, heq⟩ | ⟨v, v', hs, hat, hstep, hmem⟩
      · cases heq
      · obtain ⟨_, attemptedAt, hstage⟩ := hstep.claimed_of_begun hmem
        refine ⟨attemptedAt, List.mem_append_left _ (List.mem_filterMap.mpr ⟨_, hm, ?_⟩)⟩
        rw [hat.stage?_eq, hstage]
        rfl
    · obtain ⟨attemptedAt, hmoment⟩ := ih (turn_sound h u.1 u.2) hm
      exact ⟨attemptedAt, List.mem_append_right _ hmoment⟩

/-- A message with an outcome has a first attempt. -/
theorem Sound.sent_of_outcome (h : Sound e₀ e₀ []) {z : Entry} (hz : z ∈ e₀.ledger turns)
    (ho : z.isOutcome = true) :
    ∃ y ∈ e₀.ledger turns, y.milestone = .sent ∧ y.messageId = z.messageId := by
  have houtcome : z ∈ (e₀.history turns).filterMap Happening.outcome? := by
    rw [← filter_isOutcome_ledger]
    exact List.mem_filter.mpr ⟨hz, ho⟩
  obtain ⟨x, hx, hxz⟩ := List.mem_filterMap.mp houtcome
  obtain ⟨hid, -, hreaches⟩ := Happening.of_outcome? hxz
  obtain ⟨v, -, hlife⟩ := (h.run turns).life z.messageId
  rw [List.nil_append] at hlife
  -- The account of the message has a first attempt for its outcome.
  have haccount := hlife.account .all
  have hended : 0 < (Happening.about z.messageId (e₀.history turns)).countP
      (Happening.reaches z.milestone .all) :=
    List.countP_pos_iff.mpr ⟨x, List.mem_filter.mpr ⟨hx, beq_iff_eq.mpr hid⟩, hreaches⟩
  have hsent : 0 < (Happening.about z.messageId (e₀.history turns)).countP
      (Happening.reaches .sent .all) := by
    cases hk : z.milestone with
    | sent => simp [Entry.isOutcome, hk] at ho
    | delivered | failed => rw [hk] at hended; omega
  obtain ⟨y, hy, hyreaches⟩ := List.countP_pos_iff.mp hsent
  obtain ⟨m, rfl, hfirst⟩ := Happening.begun_of_reaches_sent hyreaches
  obtain ⟨hbegun, hmid⟩ := List.mem_filter.mp hy
  obtain ⟨attemptedAt, hmoment⟩ := h.exists_begun_moment hbegun
  refine ⟨⟨m.id, .sent, attemptedAt⟩, List.mem_filterMap.mpr ⟨_, hmoment, ?_⟩, rfl,
    beq_iff_eq.mp hmid⟩
  rw [Moment.entered?, if_pos hfirst]

end Engine

end Klaxon
