import Klaxon.Proofs.Dispatch.Steps

/-!
# Tallies

The engine counts messages in total, by priority and by channel. A `View` is one of these
selections, `Engine.tally` is what the engine has counted for it, and `View.bump` says what of a
happening is to be counted. `tally_record` says that a milestone of a message counts in the views
that see the message; the other changes to channels count nothing.
-/

namespace Klaxon

/-- A selection of messages that the engine keeps a tally of. -/
inductive View where
  | all
  | priority (p : Priority)
  | channel (id : String)

namespace View

/-- Whether a message is counted. -/
def sees : View → Message → Bool
  | .all, _ => true
  | .priority p, m => m.priority == p
  | .channel id, m => m.channelId == id

/-- The status of a message is of no account. -/
@[simp] theorem sees_status (w : View) (m : Message) (s : Status) :
    w.sees { m with status := s } = w.sees m := by
  cases w <;> rfl

/-- What was decided about a message says whether it is counted. -/
theorem sees_congr (w : View) {m m' : Message} (h : m.SameOrigin m') : w.sees m' = w.sees m := by
  cases w with
  | all => rfl
  | priority p => simp only [sees, h.priority]
  | channel id => simp only [sees, h.channelId]

end View

/-! ## Milestones -/

namespace Milestone

/-- The milestone that a message reaches with a status. -/
def ofStatus? : Status → Option Milestone
  | .delivered => some .delivered
  | .failed => some .failed
  | _ => none

/-- What a milestone does to a tally; the latency is that of a delivery. -/
def count (k : Milestone) (latencyMs : UInt64) (t : Tally) : Tally :=
  match k with
  | .sent => t.addSent
  | .delivered => t.addDelivered latencyMs
  | .failed => t.addFailed

/-- What a milestone does to a channel. -/
def change (k : Milestone) (latencyMs : UInt64) (c : Channel) : Channel :=
  match k with
  | .sent => c.recordSent
  | .delivered => c.recordDelivered latencyMs
  | .failed => c.recordFailed

/-- Milestones leave the definition of a channel as it is. -/
theorem spec_change (k : Milestone) (latencyMs : UInt64) (c : Channel) :
    (k.change latencyMs c).spec = c.spec := by
  cases k <;> rfl

/-- Milestones are counted by a channel as by every tally. -/
theorem counters_change (k : Milestone) (latencyMs : UInt64) (c : Channel) :
    (k.change latencyMs c).counters = k.count latencyMs c.counters := by
  cases k <;> rfl

end Milestone

/-- The latency of the last attempt. -/
def Message.lastLatencyMs (m : Message) : UInt64 := (m.lastAttempt?.map Attempt.latencyMs).getD 0

/-- The milestone that is reached, and the message that reaches it. -/
def Happening.milestone? : Happening → Option (Milestone × Message)
  | .begun m => if m.attempts.isEmpty then some (.sent, m) else none
  | .recorded m _ => (Milestone.ofStatus? m.status).map fun k => (k, m)
  | _ => none

/-- A tally behind a happening. -/
def View.bump (w : View) (t : Tally) (x : Happening) : Tally :=
  match x.milestone? with
  | some (k, m) => if w.sees m then k.count m.lastLatencyMs t else t
  | none => t

namespace Engine

/-- What is counted for a view. -/
def tally (e : Engine) : View → Tally
  | .all => e.statistics.totals
  | .priority p => e.statistics.byPriority.get p
  | .channel id => ((e.registry.get? id).map Channel.counters).getD .zero

/-! ## Channels -/

/-- The channel that is found has the id that it was looked for under. -/
theorem id_of_get?_eq_some {r : Registry} {id : String} {c : Channel} (h : r.get? id = some c) :
    c.id = id := by
  simpa using List.find?_some h

/-- A channel that a definition is known of is there. -/
theorem get?_of_spec? {e : Engine} {id : String} {spec : ChannelSpec}
    (h : e.spec? id = some spec) :
    ∃ channel, e.registry.get? id = some channel ∧ channel.spec = spec ∧ channel.id = id := by
  obtain ⟨channel, hget, hspec⟩ := Option.map_eq_some_iff.mp h
  exact ⟨channel, hget, hspec, id_of_get?_eq_some hget⟩

/-- A change that keeps definitions changes the channel of its id only. -/
theorem get?_modify {change : Channel → Channel} (hc : ∀ c, (change c).spec = c.spec)
    (r : Registry) (j id : String) :
    (r.modify j change).get? id =
      if id = j then (r.get? id).map change else r.get? id := by
  -- A changed channel keeps its id, so that it is found in the same place.
  have hcomp : ((fun c => c.id == id) ∘ fun c => if c.id == j then change c else c) =
      fun c : Channel => c.id == id := by
    funext c
    have hid : (change c).id = c.id := congrArg ChannelSpec.id (hc c)
    by_cases h : c.id = j <;> simp [h, hid]
  unfold Registry.modify Registry.get?
  rw [List.find?_map, hcomp]
  cases hf : r.find? (fun c => c.id == id) with
  | none => simp
  | some c =>
    have hid : c.id = id := by simpa using List.find?_some hf
    by_cases h : id = j <;> simp [hid, h]

/-- A failure that counts leaves the definition of the channel as it is. -/
theorem spec_recordAttemptFailure (c : Channel) (n : UInt32) :
    (c.recordAttemptFailure n).1.spec = c.spec := by
  unfold Channel.recordAttemptFailure
  simp only
  split <;> rfl

/-- It is no milestone, either. -/
theorem counters_recordAttemptFailure (c : Channel) (n : UInt32) :
    (c.recordAttemptFailure n).1.counters = c.counters := by
  unfold Channel.recordAttemptFailure
  simp only
  split <;> rfl

/-- A request to the limiter leaves the definition as it is. -/
theorem spec_tryAcquire (c : Channel) (now : Instant) : (c.tryAcquire now).1.spec = c.spec := by
  unfold Channel.tryAcquire
  split <;> rfl

/-- It leaves the milestones that the channel has counted, too. -/
theorem counters_tryAcquire (c : Channel) (now : Instant) :
    (c.tryAcquire now).1.counters = c.counters := by
  unfold Channel.tryAcquire
  split <;> rfl

/-! ## What is counted -/

/-- A change of channels that keeps their counters counts nothing. -/
theorem tally_modifyChannel (e : Engine) (id : String) {change : Channel → Channel}
    (hspec : ∀ c, (change c).spec = c.spec) (hcount : ∀ c, (change c).counters = c.counters)
    (w : View) : (e.modifyChannel id change).tally w = e.tally w := by
  cases w with
  | all => rfl
  | priority p => rfl
  | channel j =>
    unfold tally modifyChannel
    -- Only the channel that is changed can count differently, and it keeps its counters.
    simp only [get?_modify hspec]
    split
    · cases e.registry.get? j with
      | none => rfl
      | some c => exact hcount c
    · rfl

/-- To blame a channel counts nothing. -/
theorem tally_blame (e : Engine) (channelId : String) (error : DispatchError) (w : View) :
    (e.blame channelId error).tally w = e.tally w := by
  unfold blame
  split
  · exact e.tally_modifyChannel channelId (fun c => spec_recordAttemptFailure c _)
      (fun c => counters_recordAttemptFailure c _) w
  · rfl

/-- The engine with a milestone of a message counted, by its channel and by the statistics. -/
def mark (e : Engine) (m : Message) (k : Milestone) (latencyMs : UInt64) (now : Instant) :
    Engine :=
  { e.modifyChannel m.channelId (k.change latencyMs) with
    statistics :=
      e.statistics.record k m.priority (k.count latencyMs) now }

/-- A milestone of a message counts in the views that see it. -/
theorem tally_mark (e : Engine) {m : Message} (hget : ∃ spec, e.spec? m.channelId = some spec)
    (k : Milestone) (latencyMs : UInt64) (now : Instant) (w : View) :
    (e.mark m k latencyMs now).tally w =
      if w.sees m then k.count latencyMs (e.tally w) else e.tally w := by
  cases w with
  | all => rfl
  | priority p =>
    simp only [mark, tally, View.sees, Statistics.record, Statistics.prune, PerPriority.modify,
      beq_iff_eq]
    split
    · -- The view is that of the priority of the message.
      next h => rw [h, PerPriority.get_set_self]
    · next h => exact PerPriority.get_set_of_ne _ (fun hp => h hp.symm) _
  | channel id =>
    simp only [mark, tally, View.sees, modifyChannel,
      get?_modify (k.spec_change latencyMs), beq_iff_eq]
    by_cases hid : m.channelId = id
    · subst hid
      -- The channel is there by its definition, and has counted the milestone.
      obtain ⟨spec, hs⟩ := hget
      obtain ⟨channel, hchannel, -⟩ := get?_of_spec? hs
      simp [hchannel, Milestone.counters_change]
    · have hne : ¬ id = m.channelId := fun h => hid h.symm
      simp [hid, hne]

/-- A message counts as sent at its first attempt. -/
theorem countFirst_eq (e : Engine) (m : Message) (now : Instant) :
    e.countFirst m m.channelId now = if m.attempts.isEmpty then e.mark m .sent 0 now else e := rfl

/-- A first attempt counts. -/
theorem tally_countFirst (e : Engine) {m : Message}
    (hget : ∃ spec, e.spec? m.channelId = some spec) (now : Instant) (w : View) :
    (e.countFirst m m.channelId now).tally w = w.bump (e.tally w) (.begun m) := by
  rw [countFirst_eq]
  -- An attempt behind the first one counts for nothing, in the tally as in the history.
  by_cases hfirst : m.attempts.isEmpty = true
  · simp only [hfirst, if_true, View.bump, Happening.milestone?]
    exact e.tally_mark hget .sent 0 now w
  · simp [hfirst, View.bump, Happening.milestone?]

end Engine

end Klaxon
