import Klaxon.Proofs.Dispatch.Endings
import Klaxon.Server.Timeline

/-!
# How long messages are kept that are over

A server forgets the messages that were over for longer than a retention. It reads off a message how
long it was over: a delivered message notes when it ended, so that it is found for the whole
retention behind its end. A failed message is taken to be over since its last attempt began, and a
cancelled one since then or, if it was never tried, since it was made. So the time that the call
took counts as time that a failed message was over, and all its time in the queue as time that a
cancelled one was. `pruneExpired_retains` says how long each is found, in every run.

No message is found for longer than the retention behind its end if the clock does not go back. But
some are found for a shorter time, and some not at all: `cancelledLate_forgets` is a message that is
cancelled when it has waited for a day, and forgotten in the same instant.
-/

namespace Klaxon

namespace Server

variable {s : Server}

/-- How long a message that ended is found: until the retention is over behind the last update that
it notes. -/
structure Retains (s : Server) (m : Message) (ended : Instant) : Prop where
  found : ∀ retentionSecs : UInt64, (s.pruneExpired retentionSecs).1.engine.message? m.id =
    if s.now ≤ m.updatedAt.add (retentionSecs.toNat * Time.second) then some m else none
  delivered : m.status = .delivered → m.updatedAt = ended
  /-- The call of the last attempt counts as time that the message was over. -/
  failed : m.status = .failed → ∃ a, m.lastAttempt? = some a ∧ m.updatedAt = a.attemptedAt
  cancelled : m.status = .cancelled → m.updatedAt = m.lastBegun

/-- A message that is over is found while the retention behind its last update is not over. -/
theorem message?_pruneExpired {e₀ : Engine} {past : List Happening} (h : e₀.Sound s.engine past)
    {m : Message} (hm : s.engine.message? m.id = some m) (hover : m.status.isTerminal = true)
    (retentionSecs : UInt64) :
    (s.pruneExpired retentionSecs).1.engine.message? m.id =
      if s.now ≤ m.updatedAt.add (retentionSecs.toNat * Time.second) then some m else none := by
  have hfilter := h.message?_prune (s.now.sub (retentionSecs.toNat * Time.second)) m.id
  rw [hm, Option.filter_some] at hfilter
  refine hfilter.trans ?_
  have hkept : (!Engine.isExpired m (s.now.sub (retentionSecs.toNat * Time.second))) = true ↔
      s.now ≤ m.updatedAt.add (retentionSecs.toNat * Time.second) := by
    unfold Engine.isExpired
    rw [hover, Bool.true_and, Bool.not_eq_true', decide_eq_false_iff_not]
    simp only [Instant.lt_def, Instant.le_def, Instant.nanos_add, Instant.nanos_sub]
    omega
  simp only [hkept]

/-- In every run a message that is over ended at some time. It is found while the retention is not
over behind its end, if it was delivered; behind the begin of its last attempt, if it failed; and
behind this begin or its creation, if it was cancelled. These are not after its end where the clock
does not go back. -/
theorem pruneExpired_retains (registry : Registry) (templates : TemplateStore)
    (directory : Directory) (policy : Policy) (idSupply : IdSupply) {turns : List (Instant × Turn)}
    (hrun : s.engine = (Engine.create registry templates directory policy idSupply).run turns)
    {id : String} {m : Message} (hm : s.engine.message? id = some m)
    (hover : m.status.isTerminal = true) :
    ∃ ended, m.EndedAt ended (Happening.about id
        ((Engine.create registry templates directory policy idSupply).history turns)) ∧
      s.Retains m ended ∧ ((turns.map Prod.fst).Pairwise (· ≤ ·) → m.updatedAt ≤ ended) := by
  have hsound := Engine.run_sound registry templates directory policy idSupply turns
  rw [← hrun] at hsound
  obtain ⟨v, hat, hlife⟩ := hsound.life id
  have hmessage : v.message = some m := hat.message.symm.trans hm
  obtain rfl := Engine.id_of_message?_eq_some hm
  obtain ⟨ended, hended, hdelivered, htried⟩ := hlife.endedAt hmessage hover
  have hundelivered (hs : m.status ≠ .delivered) : m.updatedAt = m.lastBegun :=
    Message.updatedAt_eq_lastBegun (hlife.deliveredAt hmessage hs)
  refine ⟨ended, hended, ⟨message?_pruneExpired hsound hm hover, hdelivered, fun hs => ?_,
    fun hs => ?_⟩, fun hclock => ?_⟩
  · -- A message that failed was tried, and its last attempt is what it notes.
    obtain ⟨a, ha⟩ := htried hs
    refine ⟨a, ha, ?_⟩
    rw [hundelivered (by rw [hs]; decide), Message.lastBegun, ha]
    rfl
  · exact hundelivered (by rw [hs]; decide)
  · -- A delivery is noted at its end; anything else is noted before it.
    by_cases hs : m.status = .delivered
    · exact Int.le_of_eq (congrArg Instant.nanos (hdelivered hs))
    · rw [hundelivered hs]
      rw [hrun] at hm
      exact Engine.run_lastBegun_le registry templates directory policy idSupply hclock hm hover
        hended

/-- All messages that are over are found for the retention behind their end. -/
def KeepsFinished (e : Engine) (turns : List (Instant × Turn)) : Prop :=
  ∀ s : Server, s.engine = e.run turns → ∀ id m ended, s.engine.message? id = some m →
    m.status.isTerminal = true → m.EndedAt ended (Happening.about id (e.history turns)) →
    ended ≤ s.now → ∀ retentionSecs : UInt64,
    s.now ≤ ended.add (retentionSecs.toNat * Time.second) →
    (s.pruneExpired retentionSecs).1.engine.message? id = some m

/-- A server behind turns of an engine with a webhook. -/
def behind (turns : List (Instant × Turn)) (now : Instant) : Server :=
  { create (assemble Carrier.plugins .standard) 0 .silent now with
    engine := (Engine.create [Engine.hook] .withDefaults [] .standard).run turns }

/-- A message that is delivered by a call of half a minute. -/
def deliveredSlowly : List (Instant × Turn) :=
  [(.epoch, .sendWebhook Engine.blaze "hook" none), (.epoch, .pull .normal),
    (.epoch, .claim "m1"), (.epoch, .attempt "m1"),
    (⟨30 * Time.second, false⟩, .complete "m1" ⟨.ok .silent, 0⟩)]

/-- The half minute does not count: an hour behind the end of the call the message is still found
for a retention of an hour. -/
theorem deliveredSlowly_retains : ∃ m : Message,
    (behind deliveredSlowly ⟨30 * Time.second + Time.hour, false⟩).Retains m
      ⟨30 * Time.second, false⟩ ∧
    ((behind deliveredSlowly ⟨30 * Time.second + Time.hour, false⟩).pruneExpired
      3600).1.engine.message? m.id = some m := by
  have hstored : ∃ m, (behind deliveredSlowly
      ⟨30 * Time.second + Time.hour, false⟩).engine.message? "m1" = some m ∧
        m.status = .delivered ∧ m.updatedAt = ⟨30 * Time.second, false⟩ := ⟨_, rfl, rfl, rfl⟩
  obtain ⟨m, hm, hs, hupdated⟩ := hstored
  obtain ⟨ended, -, hretains, -⟩ :=
    pruneExpired_retains [Engine.hook] .withDefaults [] .standard .numbered rfl hm
      (by rw [hs]; rfl)
  obtain rfl : ⟨30 * Time.second, false⟩ = ended := hupdated.symm.trans (hretains.delivered hs)
  refine ⟨m, hretains, ?_⟩
  rw [hretains.found, hupdated]
  exact if_pos (by decide)

/-- A message that is cancelled when it has waited for a day. -/
def cancelledLate : List (Instant × Turn) :=
  [(.epoch, .sendWebhook Engine.blaze "hook" none), (⟨Time.day, false⟩, .cancel "m1")]

/-- The message is forgotten in the instant in which it is cancelled, for a retention of an hour. -/
theorem cancelledLate_forgets : (cancelledLate.map Prod.fst).Pairwise (· ≤ ·) ∧
    ¬ KeepsFinished (Engine.create [Engine.hook] .withDefaults [] .standard) cancelledLate := by
  refine ⟨by decide, fun hkeeps => ?_⟩
  have hstored : ∃ m, (behind cancelledLate ⟨Time.day, false⟩).engine.message? "m1" = some m ∧
      m.status = .cancelled ∧
        (Happening.about "m1" ((Engine.create [Engine.hook] .withDefaults [] .standard).history
          cancelledLate)).getLast? = some (.cancelled m ⟨Time.day, false⟩) := ⟨_, rfl, rfl, rfl⟩
  obtain ⟨m, hm, hs, hlast⟩ := hstored
  have hfound := hkeeps (behind cancelledLate ⟨Time.day, false⟩) rfl "m1" m ⟨Time.day, false⟩ hm
    (by rw [hs]; rfl) (.inr hlast) (Int.le_refl _) 3600 (by decide)
  have hforgotten : ((behind cancelledLate ⟨Time.day, false⟩).pruneExpired
      3600).1.engine.message? "m1" = none := rfl
  rw [hforgotten] at hfound
  nomatch hfound

end Server

end Klaxon
