import Klaxon.Proofs.Dispatch.Endings
import Klaxon.Proofs.Dispatch.Without

/-!
# Nobody notices a pruning

A pruning forgets messages that are over, and may come between any two turns. It takes the messages
only: the id of a cancelled message that is forgotten still stands in its lane or waits behind its
timer, so that whatever comes upon it finds no message from then on where it would have found a
cancelled one. `run_unnoticed` says that this makes no difference to a run, however many prunings
are put into it.

The argument compares an engine with the same engine without some messages (`Engine.without`). If
these messages ended before (`HaveEnded`), then every turn does the same in both, and goes on to two
engines that differ in these messages again (`Sound.turn_without`). A call is under way only for a
message that is being sent, and a new message gets an id of which nothing was seen, so that neither
of them is among the messages that are gone. What is left are a claim, a timer and a cancellation:
they do with a message that is over what they do with one that is not there.
-/

namespace Klaxon

namespace Engine

/-! ## What a pruning does -/

/-- A pruning takes the messages that were over before a time, and nothing else. -/
structure PrunesExpired (e : Engine) (before : Instant) : Prop where
  messages : ∀ m, m ∈ (e.prune before).1.messages ↔
    m ∈ e.messages ∧ ¬ (m.status.isTerminal = true ∧ m.updatedAt < before)
  /-- What is kept stays in its order. -/
  sublist : (e.prune before).1.messages.Sublist e.messages
  number : (e.prune before).2 =
    e.messages.countP fun m => m.status.isTerminal && decide (m.updatedAt < before)
  others : (e.prune before).1 = { e with messages := (e.prune before).1.messages }

/-- A pruning is a filter, and the number that it gives is that of what the filter leaves out. -/
theorem prunesExpired (e : Engine) (before : Instant) : e.PrunesExpired before where
  messages m := by
    unfold prune isExpired
    rw [List.mem_filter, Bool.not_eq_true', ← Bool.not_eq_true, Bool.and_eq_true,
      decide_eq_true_eq]
  sublist := List.filter_sublist
  number := by
    -- All messages are those that are kept and those that are expired.
    have hsplit := List.length_eq_countP_add_countP (fun m => isExpired m before) (l := e.messages)
    have hkept : (e.messages.filter fun m => !isExpired m before).length =
        e.messages.countP fun m => ¬ isExpired m before = true := by
      rw [List.countP_eq_length_filter]
      simp
    unfold prune
    simp only [hkept]
    have hexpired : (e.messages.countP fun m => isExpired m before) =
        e.messages.countP fun m => m.status.isTerminal && decide (m.updatedAt < before) := rfl
    omega
  others := rfl

/-! ## Messages that ended -/

/-- The messages of some ids ended, and this was seen. -/
def HaveEnded (gone : List String) (past : List Happening) : Prop :=
  ∀ id ∈ gone, ∃ x ∈ past, x.messageId = id ∧ x.isEnd = true

/-- What was seen stays seen. -/
theorem HaveEnded.append {gone : List String} {past : List Happening} (h : HaveEnded gone past)
    (hs : List Happening) : HaveEnded gone (past ++ hs) := by
  intro id hid
  obtain ⟨x, hx, hspec⟩ := h id hid
  exact ⟨x, List.mem_append_left _ hx, hspec⟩

variable {e₀ e : Engine} {past : List Happening} {gone : List String}

/-- An id whose message ended is over. -/
theorem Sound.isOver (h : Sound e₀ e past) (hg : HaveEnded gone past) {id : String}
    (hid : id ∈ gone) : ∃ v, e.At id v ∧ v.IsOver := by
  obtain ⟨v, hat, hlife⟩ := h.life id
  obtain ⟨x, hx, hxid, hend⟩ := hg id hid
  have habout : x ∈ Happening.about id past := List.mem_filter.mpr ⟨hx, beq_iff_eq.mpr hxid⟩
  exact ⟨v, hat, hlife.isOver_of_isEnd habout hend⟩

/-- If the message of such an id is still stored, it is over. -/
theorem Sound.isTerminal_of_gone (h : Sound e₀ e past) (hg : HaveEnded gone past) {id : String}
    (hid : id ∈ gone) {m : Message} (hm : e.message? id = some m) :
    m.status.isTerminal = true := by
  obtain ⟨v, hat, hover⟩ := h.isOver hg hid
  exact hover.message m (hat.message.symm.trans hm)

/-- A message that is being sent did not end. -/
theorem Sound.not_gone_of_sending (h : Sound e₀ e past) (hg : HaveEnded gone past) {id : String}
    {m : Message} (hm : e.message? id = some m) (hs : m.status = .sending) : id ∉ gone := by
  intro hid
  have hover := h.isTerminal_of_gone hg hid hm
  rw [hs] at hover
  simp [Status.isTerminal] at hover

/-- The next message did not end, as nothing was seen of it. -/
theorem Sound.nextId_not_gone (h : Sound e₀ e past) (hg : HaveEnded gone past) :
    e.nextId ∉ gone := by
  intro hid
  obtain ⟨x, hx, hxid, -⟩ := hg _ hid
  have habout : x ∈ Happening.about e.nextId past :=
    List.mem_filter.mpr ⟨hx, beq_iff_eq.mpr hxid⟩
  rw [h.nextId_unused.2] at habout
  simp at habout

/-- The end of a stored message that is over was seen. -/
theorem Sound.exists_end (h : Sound e₀ e past) {m : Message} (hm : m ∈ e.messages)
    (hover : m.status.isTerminal = true) : ∃ x ∈ past, x.messageId = m.id ∧ x.isEnd = true := by
  obtain ⟨handle, -, hlife⟩ := h.position hm
  obtain ⟨ended, hended, -⟩ := hlife.endedAt rfl hover
  -- The last happening of a message that is over is its end: a record or a cancellation.
  rcases hended with hlast | hlast
  · have hmem := List.mem_of_getLast? hlast
    exact ⟨_, (List.mem_filter.mp hmem).1, rfl, hover⟩
  · have hmem := List.mem_of_getLast? hlast
    exact ⟨_, (List.mem_filter.mp hmem).1, rfl, rfl⟩

/-- A message that is over cannot be cancelled. -/
theorem cancel_of_isTerminal {id : String}
    (h : ∀ m, e.message? id = some m → m.status.isTerminal = true) :
    ∃ error, e.cancel id = (e, .error error) := by
  unfold cancel
  cases hm : e.message? id with
  | none => exact ⟨_, rfl⟩
  | some m =>
    cases hc : m.cancel with
    | error error => exact ⟨error, by simp only [hc]⟩
    | ok m' =>
      obtain ⟨hallows, -⟩ := Message.moveTo_eq_ok hc
      have hover := h m hm
      rw [(Message.allows_iff_queued (.inr rfl)).mp hallows] at hover
      simp [Status.isTerminal] at hover

/-- A message that is over cannot be claimed, so that its flight ends. -/
theorem claim_of_isTerminal {id : String}
    (h : ∀ m, e.message? id = some m → m.status.isTerminal = true) (now : Instant) :
    e.claim id now = e.land id := by
  unfold claim
  cases hm : e.message? id with
  | none => rfl
  | some m =>
    cases hb : m.beginSending with
    | error error => simp only [hb]
    | ok m' =>
      obtain ⟨hallows, -⟩ := Message.moveTo_eq_ok hb
      have hover := h m hm
      rw [(Message.allows_iff_queued (.inl rfl)).mp hallows] at hover
      simp [Status.isTerminal] at hover

/-- A message that is over does not go back to its lane. -/
theorem requeue_of_isTerminal {id : String}
    (h : ∀ m, e.message? id = some m → m.status.isTerminal = true) (p : Priority) :
    e.requeue id p = e := by
  unfold requeue
  cases hm : e.message? id with
  | none => rfl
  | some m =>
    have hne : m.status ≠ .queued := by
      intro hq
      have hover := h m hm
      rw [hq] at hover
      simp [Status.isTerminal] at hover
    simp only [hne, if_false]

/-! ## Turns -/

/-- A turn does the same, and the same is seen of it, whether or not some messages are there. -/
structure Overlooks (e : Engine) (gone : List String) (now : Instant) (t : Turn) : Prop where
  turn : (e.without gone).turn now t = (e.turn now t).without gone
  happenings : (e.without gone).happenings now t = e.happenings now t

/-- No message is found under an id that is gone. -/
theorem message?_gone {id : String} (h : id ∈ gone) (m : Message) :
    (e.without gone).message? id = some m → m.status.isTerminal = true := by
  intro hm
  rw [e.message?_without_of_mem h] at hm
  simp at hm

/-- To cancel a message that is gone or over is refused either way. -/
theorem Sound.overlooks_cancel (h : Sound e₀ e past) (hg : HaveEnded gone past) (now : Instant)
    (id : String) : e.Overlooks gone now (.cancel id) := by
  by_cases hid : id ∈ gone
  · -- It is refused in both cases, for a reason of its own in each.
    obtain ⟨error, hplain⟩ := cancel_of_isTerminal fun m hm => h.isTerminal_of_gone hg hid hm
    obtain ⟨error', hwithout⟩ := cancel_of_isTerminal (message?_gone (e := e) hid)
    constructor
    · simp only [Engine.turn, hplain, hwithout]
    · simp only [Engine.happenings, hplain, hwithout]
  · have hcancel := e.cancel_without hid
    constructor
    · simp only [Engine.turn, hcancel]
    · simp only [Engine.happenings, hcancel]

/-- A claim does not care whether a message that ended is there. -/
theorem Sound.overlooks_claim (h : Sound e₀ e past) (hg : HaveEnded gone past) (now : Instant)
    (id : String) : e.Overlooks gone now (.claim id) := by
  refine ⟨?_, rfl⟩
  have hstage : (e.without gone).stage? id = e.stage? id := rfl
  have hclaim : (e.without gone).claim id now = (e.claim id now).without gone := by
    by_cases hid : id ∈ gone
    · -- The flight of a cancelled message ends as one whose message is not there.
      rw [claim_of_isTerminal (message?_gone (e := e) hid),
        claim_of_isTerminal fun m hm => h.isTerminal_of_gone hg hid hm]
      rfl
    · unfold claim
      rw [e.message?_without hid]
      split
      · rfl
      · split
        · rfl
        · rw [putMessage_without]
          rfl
  simp only [Engine.turn, hstage]
  split
  · exact hclaim
  · rfl

/-- Neither does an attempt. -/
theorem Sound.overlooks_attempt (h : Sound e₀ e past) (hg : HaveEnded gone past) (now : Instant)
    (id : String) : e.Overlooks gone now (.attempt id) := by
  have hstage : (e.without gone).stage? id = e.stage? id := rfl
  cases hs : e.stage? id with
  | none => constructor <;> simp only [Engine.turn, Engine.happenings, hstage, hs]
  | some stage =>
    cases stage with
    | pulled => constructor <;> simp only [Engine.turn, Engine.happenings, hstage, hs]
    | calling call => constructor <;> simp only [Engine.turn, Engine.happenings, hstage, hs]
    | claimed m attemptedAt =>
      -- The message is being sent, so that it is none of those that are gone.
      obtain ⟨hat, rfl, hsending, -⟩ := h.claimed hs
      have hid : m.id ∉ gone := h.not_gone_of_sending hg hat.message hsending
      have hattempt := attempt_without e hid attemptedAt now
      constructor
      · simp only [Engine.turn, hstage, hs, hattempt]
      · simp only [Engine.happenings, hstage, hs, hattempt]
        rcases e.attempt m attemptedAt now with ⟨after, _ | call⟩
        · simp only [recorded_without after hid]
        · rfl

/-- Neither does the end of a call. -/
theorem Sound.overlooks_complete (h : Sound e₀ e past) (hg : HaveEnded gone past)
    (now : Instant) (id : String) (report : Report) :
    e.Overlooks gone now (.complete id report) := by
  have hcallOf : (e.without gone).callOf? id = e.callOf? id := rfl
  cases hcall : e.callOf? id with
  | none =>
    constructor
    · simp only [Engine.turn, complete, hcallOf, hcall]
    · simp only [Engine.happenings, hcallOf, hcall]
  | some call =>
    -- A call is under way for a message that is being sent.
    obtain ⟨m, hat, -, hsending, -⟩ := h.calling hcall
    have hid : id ∉ gone := h.not_gone_of_sending hg hat.message hsending
    have hcomplete := complete_without e hid report now
    constructor
    · exact hcomplete
    · simp only [Engine.happenings, hcallOf, hcall, hcomplete, recorded_without _ hid]

/-- Neither does a timer. -/
theorem Sound.overlooks_fire (h : Sound e₀ e past) (hg : HaveEnded gone past) (now : Instant)
    (timer : Timer) : e.Overlooks gone now (.fire timer) := by
  refine ⟨?_, rfl⟩
  have htimers : (e.without gone).timers = e.timers := rfl
  have hfire : (e.without gone).fire timer = (e.fire timer).without gone := by
    by_cases hid : timer.messageId ∈ gone
    · -- The timer is dropped in both cases.
      have hplain := requeue_of_isTerminal (e := { e with timers := e.timers.erase timer })
        (fun m hm => h.isTerminal_of_gone hg hid hm) timer.priority
      have hwithout := requeue_of_isTerminal
        (message?_gone (e := { e with timers := e.timers.erase timer }) hid) timer.priority
      unfold fire
      rw [hplain]
      exact hwithout
    · have hmessage : ({ e.without gone with timers := e.timers.erase timer } : Engine).message?
          timer.messageId = e.message? timer.messageId := e.message?_without hid
      have hplain : ({ e with timers := e.timers.erase timer } : Engine).message?
          timer.messageId = e.message? timer.messageId := rfl
      unfold fire requeue
      rw [htimers, hmessage, hplain]
      split
      · split
        · rfl
        · rfl
      · rfl
  simp only [Engine.turn, htimers]
  split
  · exact hfire
  · rfl

/-- Whatever a turn does, it does not matter whether messages are there that ended. -/
theorem Sound.turn_without (h : Sound e₀ e past) (hg : HaveEnded gone past) (now : Instant)
    (t : Turn) : e.Overlooks gone now t := by
  -- What is made gets an id that is not gone; what is pruned twice is pruned in either order.
  have hnext := h.nextId_not_gone hg
  cases t with
  | offer alert recipient priority channelType =>
    have hnotify := notifyOver_without e hnext alert recipient priority now channelType
    constructor
    · simp only [Engine.turn, hnotify]
    · simp only [Engine.happenings, hnotify]
  | sendCustom recipientId channelId templateId context priority =>
    have hsend := sendCustom_without e hnext recipientId channelId templateId context priority now
    constructor
    · simp only [Engine.turn, hsend]
    · simp only [Engine.happenings, hsend]
  | sendWebhook alert channelId url =>
    have hsend := sendWebhook_without e hnext alert channelId url now
    constructor
    · simp only [Engine.turn, hsend]
    · simp only [Engine.happenings, hsend]
  | cancel id => exact h.overlooks_cancel hg now id
  | claim id => exact h.overlooks_claim hg now id
  | attempt id => exact h.overlooks_attempt hg now id
  | complete id report => exact h.overlooks_complete hg now id report
  | fire timer => exact h.overlooks_fire hg now timer
  | prune before =>
    refine ⟨?_, rfl⟩
    simp only [Engine.turn, prune, without, List.filter_filter]
    congr 1
    -- Both orders keep the messages that neither of the two filters takes.
    refine List.filter_congr fun m _ => ?_
    exact Bool.and_comm _ _
  | _ => exact ⟨rfl, rfl⟩

/-! ## Runs with prunings put in -/

end Engine

/-- A turn of a run, or a pruning that is put in between. -/
inductive Passage where
  | turn (now : Instant) (t : Turn)
  | pruning (now before : Instant)

namespace Passage

/-- The run as it is without what was put in. -/
def plain : List Passage → List (Instant × Turn)
  | [] => []
  | .turn now t :: rest => (now, t) :: plain rest
  | .pruning .. :: rest => plain rest

/-- The run with the prunings. -/
def pruned : List Passage → List (Instant × Turn)
  | [] => []
  | .turn now t :: rest => (now, t) :: pruned rest
  | .pruning now before :: rest => (now, .prune before) :: pruned rest

end Passage

namespace Engine

variable {e₀ e : Engine} {past : List Happening} {gone : List String}

/-- The ids of the messages that a pruning forgets. -/
def expired (e : Engine) (before : Instant) : List String :=
  (e.messages.filter fun m => isExpired m before).map Message.id

/-- The ids of the messages that the prunings forget which were put into a run. -/
def forgotten (e : Engine) : List Passage → List String
  | [] => []
  | .turn now t :: rest => (e.turn now t).forgotten rest
  | .pruning _ before :: rest => e.expired before ++ (e.prune before).1.forgotten rest

/-- Behind a pruning, an engine is without the messages that are forgotten. -/
theorem prune_eq_without (hn : (e.messages.map Message.id).Nodup) (before : Instant) :
    (e.prune before).1 = e.without (e.expired before) := by
  unfold prune without
  simp only
  congr 1
  refine List.filter_congr fun m hm => ?_
  -- No other message has its id, so that it is forgotten for itself only.
  have hmem : m.id ∈ e.expired before ↔ isExpired m before = true := by
    unfold expired
    rw [List.mem_map]
    constructor
    · rintro ⟨m', hm', hid⟩
      obtain ⟨hstored, hexpired⟩ := List.mem_filter.mp hm'
      have hfound := message?_of_mem hn hstored
      rw [hid, message?_of_mem hn hm] at hfound
      rw [Option.some.inj hfound]
      exact hexpired
    · intro hexpired
      exact ⟨m, List.mem_filter.mpr ⟨hm, hexpired⟩, rfl⟩
  cases hx : isExpired m before with
  | true => simp [hmem, hx]
  | false => simp [hmem, hx]

/-- What a pruning forgets ended. -/
theorem Sound.haveEnded_expired (h : Sound e₀ e past) (gone : List String) (before : Instant) :
    HaveEnded ((e.without gone).expired before) past := by
  intro id hid
  obtain ⟨m, hm, rfl⟩ := List.mem_map.mp hid
  obtain ⟨hstored, hexpired⟩ := List.mem_filter.mp hm
  have hterminal : m.status.isTerminal = true := by
    unfold isExpired at hexpired
    rw [Bool.and_eq_true] at hexpired
    exact hexpired.1
  exact h.exists_end (List.mem_filter.mp hstored).1 hterminal

/-- A run with prunings put in goes like the run without them, from engines that differ in messages
that ended; and it ends with engines that differ in the messages that were forgotten on the way,
besides. -/
theorem Sound.run_without (h : Sound e₀ e past) (hg : HaveEnded gone past) (ps : List Passage) :
    (e.without gone).run (Passage.pruned ps) =
        (e.run (Passage.plain ps)).without (gone ++ (e.without gone).forgotten ps) ∧
      (e.without gone).history (Passage.pruned ps) = e.history (Passage.plain ps) ∧
      HaveEnded (gone ++ (e.without gone).forgotten ps)
        (past ++ e.history (Passage.plain ps)) := by
  induction ps generalizing e past gone with
  | nil =>
    simp only [Passage.pruned, Passage.plain, forgotten, Engine.run, history, List.append_nil]
    exact ⟨trivial, trivial, hg⟩
  | cons p rest ih =>
    cases p with
    | turn now t =>
      -- The same turn is taken on both sides, and what ended before has still ended.
      have hsame := h.turn_without hg now t
      obtain ⟨hrun, hhistory, hended⟩ := ih (turn_sound h now t) (hg.append _)
      simp only [Passage.pruned, Passage.plain, forgotten, Engine.run, history]
      rw [hsame.turn, hsame.happenings, hrun, hhistory, ← List.append_assoc]
      exact ⟨rfl, rfl, hended⟩
    | pruning now before =>
      -- Nothing is seen of the pruning, and it adds what it forgets to what is gone.
      have hnodup : ((e.without gone).messages.map Message.id).Nodup :=
        h.nodup.sublist (List.filter_sublist.map Message.id)
      have hprune : ((e.without gone).prune before).1 =
          e.without (gone ++ (e.without gone).expired before) := by
        rw [prune_eq_without hnodup, without_without]
      have hmore : HaveEnded (gone ++ (e.without gone).expired before) past := by
        intro id hid
        rcases List.mem_append.mp hid with hid | hid
        · exact hg id hid
        · exact h.haveEnded_expired gone before id hid
      obtain ⟨hrun, hhistory, hended⟩ := ih h hmore
      simp only [Passage.pruned, Passage.plain, forgotten, Engine.run, history,
        Engine.turn, Engine.happenings, List.nil_append]
      rw [hprune, hrun, hhistory, ← List.append_assoc]
      exact ⟨rfl, rfl, hended⟩

/-- An engine is as it would be without the prunings that forgot some messages. -/
structure Unnoticed (plain pruned : Engine) (gone : List String) : Prop where
  /-- The messages that are not forgotten are the same, in the same order. -/
  messages : pruned.messages = plain.messages.filter fun m => decide (m.id ∉ gone)
  /-- So is everything else: the statistics, the counters of the channels, the lanes, the timers,
  the work under way. -/
  others : pruned = { plain with messages := pruned.messages }
  /-- What is forgotten is over. -/
  isTerminal : ∀ m ∈ plain.messages, m.id ∈ gone → m.status.isTerminal = true
  /-- Whatever is done next, the same is seen of it. -/
  happenings : ∀ now t, pruned.happenings now t = plain.happenings now t
  batches : ∀ p, (pruned.pull p).2 = (plain.pull p).2
  reports : ∀ now, (pruned.report now).2 = (plain.report now).2
  customs : ∀ recipientId channelId templateId context priority now,
    (pruned.sendCustom recipientId channelId templateId context priority now).2 =
      (plain.sendCustom recipientId channelId templateId context priority now).2
  webhooks : ∀ alert channelId url now, (pruned.sendWebhook alert channelId url now).2 =
    (plain.sendWebhook alert channelId url now).2
  cancels : ∀ id, id ∉ gone → (pruned.cancel id).2 = (plain.cancel id).2
  /-- Where a forgotten message is to be cancelled, this is refused with another error. -/
  refusals : ∀ id ∈ gone, pruned.cancel id = (pruned, .error (.messageNotFound id)) ∧
    ∃ error, plain.cancel id = (plain, .error error)

/-- Messages that ended are missed by nobody. -/
theorem Sound.unnoticed (h : Sound e₀ e past) (hg : HaveEnded gone past) :
    e.Unnoticed (e.without gone) gone where
  messages := rfl
  others := rfl
  isTerminal m hm hid := h.isTerminal_of_gone hg hid (message?_of_mem h.nodup hm)
  happenings now t := (h.turn_without hg now t).happenings
  batches _ := rfl
  reports _ := rfl
  customs recipientId channelId templateId context priority now := by
    rw [sendCustom_without e (h.nextId_not_gone hg)]
  webhooks alert channelId url now := by
    rw [sendWebhook_without e (h.nextId_not_gone hg)]
  cancels id hid := by
    rw [e.cancel_without hid]
  refusals id hid := by
    constructor
    · unfold cancel
      rw [e.message?_without_of_mem hid]
    · exact cancel_of_isTerminal fun m hm => h.isTerminal_of_gone hg hid hm

/-- Whatever prunings are put into a run, the same is seen of it: the same messages are made, the
deliverer is called for the same of them with the same deliveries, and the same is recorded. The
engine ends up as without these prunings, except that it is without the messages that they forgot;
and each pruning forgets the messages that were over before its time, and nothing else. -/
theorem run_unnoticed (registry : Registry) (templates : TemplateStore) (directory : Directory)
    (policy : Policy) (idSupply : IdSupply) (ps : List Passage) :
    let e := create registry templates directory policy idSupply
    (∀ before, (e.run (Passage.pruned ps)).PrunesExpired before) ∧
      e.history (Passage.pruned ps) = e.history (Passage.plain ps) ∧
      Unnoticed (e.run (Passage.plain ps)) (e.run (Passage.pruned ps)) (e.forgotten ps) := by
  intro e
  have hsound := create_sound registry templates directory policy idSupply
  have hnone : HaveEnded [] [] := fun id hid => by simp at hid
  obtain ⟨hrun, hhistory, hended⟩ := hsound.run_without hnone ps
  rw [without_nil, List.nil_append] at hrun hended
  rw [without_nil] at hhistory
  refine ⟨fun before => prunesExpired _ before, hhistory, ?_⟩
  rw [hrun]
  exact (hsound.run (Passage.plain ps)).unnoticed hended

end Engine

end Klaxon
