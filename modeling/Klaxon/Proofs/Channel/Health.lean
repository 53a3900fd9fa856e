import Klaxon.Dispatch.Attempt
import Mathlib.Data.List.DropRight

/-!
# The health of a channel

An `Incident` is what bears on the health of a channel: a delivery, a failed attempt, and the two
requests from outside. `FollowsIncidents` says what the health of a channel is after incidents.
Only those behind the last delivery or restoring count: the channel is unhealthy if it was marked so
among them, or if as many of them as the threshold are failures that count.

The word that counts the failures may overflow (`consecutiveFailures_after`). The count is lost
then, but the channel was unhealthy long before, and stays so (`le_or_le_ofNat_add_one`).
-/

namespace Klaxon.Channel

/-- What happens to a channel and bears on its health. -/
inductive Incident where
  | delivered (latencyMs : UInt64)
  | failed (error : DispatchError)
  | markedUnhealthy
  | restored
  deriving DecidableEq

namespace Incident

/-- The incident that the end of a call is. -/
def ofReport (report : Report) : Incident :=
  match report.result with
  | .ok _ => .delivered report.latencyMs
  | .error error => .failed error

/-- Whether a channel is healthy behind the incident, whatever was before. -/
def heals : Incident → Bool
  | .delivered _ | .restored => true
  | .failed _ | .markedUnhealthy => false

/-- Whether the incident is a failure that counts: another attempt may help, and it is not the
channel itself that held it back. -/
def counts : Incident → Bool
  | .failed error => decide (error.kind = .transient) && !error.isRateLimit
  | _ => false

/-- The incidents behind the last one that heals. -/
def sinceHealed (incidents : List Incident) : List Incident :=
  incidents.rtakeWhile fun i => !i.heals

/-- Incidents leave a new channel unhealthy: behind the last one that heals it was marked so, or as
many failures count as the threshold says. -/
def Upset (unhealthyAfter : UInt32) (incidents : List Incident) : Prop :=
  .markedUnhealthy ∈ sinceHealed incidents ∨
    0 < unhealthyAfter ∧ unhealthyAfter.toNat ≤ (sinceHealed incidents).countP counts

instance (unhealthyAfter : UInt32) (incidents : List Incident) :
    Decidable (Upset unhealthyAfter incidents) :=
  inferInstanceAs (Decidable (_ ∨ _))

/-- An incident that heals leaves nothing behind it. -/
theorem sinceHealed_concat_of_heals (incidents : List Incident) {i : Incident}
    (h : i.heals = true) : sinceHealed (incidents ++ [i]) = [] :=
  List.rtakeWhile_concat_neg _ _ _ (by simp [h])

/-- Any other incident is one more behind the last one that heals. -/
theorem sinceHealed_concat (incidents : List Incident) {i : Incident} (h : i.heals = false) :
    sinceHealed (incidents ++ [i]) = sinceHealed incidents ++ [i] :=
  List.rtakeWhile_concat_pos _ _ _ (by simp [h])

/-- Without incidents behind the last one that heals a channel is healthy. -/
theorem not_upset_of_nil {incidents : List Incident} (h : sinceHealed incidents = [])
    {unhealthyAfter : UInt32} : ¬ Upset unhealthyAfter incidents := by
  rintro (hmarked | ⟨hpos, hle⟩)
  · simp [h] at hmarked
  · -- No failure counts, and the threshold is above zero.
    rw [h, List.countP_nil] at hle
    exact absurd (UInt32.lt_iff_toNat_lt.mp hpos) (Nat.not_lt.mpr hle)

end Incident

open Incident

/-! ## One incident -/

/-- What an incident does to a channel, and whether it is reported as what made the channel
unhealthy. -/
def meet (c : Channel) (unhealthyAfter : UInt32) : Incident → Channel × Bool
  | .delivered latencyMs => (c.recordDelivered latencyMs, false)
  | .failed error =>
    if Engine.speaksAgainstChannel error then c.recordAttemptFailure unhealthyAfter else (c, false)
  | .markedUnhealthy => (c.markUnhealthy, false)
  | .restored => (c.restore, false)

/-- The channel after incidents. -/
def after (c : Channel) (unhealthyAfter : UInt32) (incidents : List Incident) : Channel :=
  incidents.foldl (fun c i => (c.meet unhealthyAfter i).1) c

/-- What is reported of incidents, one after the other. -/
def reports (c : Channel) (unhealthyAfter : UInt32) : List Incident → List Bool
  | [] => []
  | i :: rest =>
    (c.meet unhealthyAfter i).2 :: (c.meet unhealthyAfter i).1.reports unhealthyAfter rest

/-- How often the channel returns to health. -/
def recoveries (c : Channel) (unhealthyAfter : UInt32) : List Incident → Nat
  | [] => 0
  | i :: rest =>
    (if c.healthy = false ∧ (c.meet unhealthyAfter i).1.healthy = true then 1 else 0) +
      (c.meet unhealthyAfter i).1.recoveries unhealthyAfter rest

/-- The failures that the engine counts against a channel are the incidents that count. -/
theorem speaksAgainstChannel_eq (error : DispatchError) :
    Engine.speaksAgainstChannel error = (Incident.failed error).counts := rfl

variable {c c' : Channel} {n : UInt32} {i : Incident} {incidents : List Incident}

/-- A delivery and a restoring both make the channel healthy and its counter zero. -/
theorem meet_of_heals (h : i.heals = true) :
    (c.meet n i).1.healthy = true ∧ (c.meet n i).1.consecutiveFailures = 0 := by
  cases i with
  | delivered | restored => exact ⟨rfl, rfl⟩
  | failed | markedUnhealthy => simp [heals] at h

/-- A failure that counts makes a channel unhealthy where it reaches the threshold. -/
theorem meet_of_counts (h : i.counts = true) :
    (c.meet n i).1.consecutiveFailures = c.consecutiveFailures + 1 ∧
      ((c.meet n i).1.healthy = false ↔
        c.healthy = false ∨ 0 < n ∧ n ≤ c.consecutiveFailures + 1) := by
  cases i with
  | failed error =>
    rw [meet, speaksAgainstChannel_eq, if_pos h, recordAttemptFailure]
    split
    · next hreached => exact ⟨rfl, iff_of_true rfl (.inr hreached)⟩
    · next hbelow => exact ⟨rfl, (or_iff_left hbelow).symm⟩
  | delivered | restored | markedUnhealthy => simp [counts] at h

/-- Any other failure changes nothing. -/
theorem meet_failed {error : DispatchError} (h : (Incident.failed error).counts = false) :
    c.meet n (.failed error) = (c, false) := by
  rw [meet, speaksAgainstChannel_eq, h, if_neg Bool.false_ne_true]

/-- A report says that the channel was healthy and is not any more. -/
theorem healthy_of_report (h : (c.meet n i).2 = true) :
    c.healthy = true ∧ (c.meet n i).1.healthy = false := by
  cases i with
  | failed error =>
    rw [meet] at h ⊢
    split at h
    · next hspeaks =>
      rw [if_pos hspeaks]
      -- Only the failure that reaches the threshold can report, and it says what the channel was.
      rw [recordAttemptFailure] at h ⊢
      split at h
      · next hreached =>
        rw [if_pos hreached]
        exact ⟨h, rfl⟩
      · simp at h
    · simp at h
  | delivered | restored | markedUnhealthy => simp [meet] at h

/-! ## All incidents -/

/-- The last incident comes last. -/
theorem after_concat (c : Channel) (n : UInt32) (incidents : List Incident) (i : Incident) :
    c.after n (incidents ++ [i]) = ((c.after n incidents).meet n i).1 :=
  List.foldl_concat ..

/-- Incidents can be taken in two parts. -/
theorem after_append (c : Channel) (n : UInt32) (incidents more : List Incident) :
    c.after n (incidents ++ more) = (c.after n incidents).after n more :=
  List.foldl_append

/-- A new channel is healthy and without failures. -/
theorem health_create {spec : ChannelSpec} {handles : ChannelType}
    (h : create spec handles = .ok c) : c.healthy = true ∧ c.consecutiveFailures = 0 := by
  unfold create at h
  split at h
  · simp at h
  split at h
  · simp at h
  split at h
  · simp at h
  · exact Except.ok.inj h ▸ ⟨rfl, rfl⟩

/-- The counter holds the failures that count since the channel was healed, as a word. -/
theorem consecutiveFailures_after (h : c.consecutiveFailures = 0) (n : UInt32)
    (incidents : List Incident) :
    (c.after n incidents).consecutiveFailures =
      UInt32.ofNat ((sinceHealed incidents).countP counts) := by
  -- The count looks from the last incident back, so that the induction takes incidents off the end.
  induction incidents using List.reverseRecOn with
  | nil => exact h
  | append_singleton before i ih =>
    rw [after_concat]
    cases hheals : i.heals with
    | true =>
      rw [sinceHealed_concat_of_heals before hheals]
      exact (meet_of_heals hheals).2
    | false =>
      rw [sinceHealed_concat before hheals, List.countP_append, List.countP_singleton]
      cases hcounts : i.counts with
      | true =>
        -- The word may wrap here; the equation is between words, so that it holds all the same.
        rw [(meet_of_counts hcounts).1, ih, if_pos rfl, UInt32.ofNat_add]
        rfl
      | false =>
        -- Neither a failure that does not count nor marking the channel touches the counter.
        rw [if_neg Bool.false_ne_true, Nat.add_zero, ← ih]
        cases i with
        | failed => rw [meet_failed hcounts]
        | markedUnhealthy => rfl
        | delivered | restored => simp [heals] at hheals

/-- A counter reaches a threshold where the count does, or the count was there before. -/
theorem le_or_le_ofNat_add_one (n : UInt32) (k : Nat) :
    n.toNat ≤ k ∨ n ≤ UInt32.ofNat k + 1 ↔ n.toNat ≤ k + 1 := by
  have hn := n.toNat_lt
  rw [UInt32.le_iff_toNat_le, UInt32.toNat_add, UInt32.toNat_ofNat', UInt32.toNat_one]
  omega

/-- A channel that was healthy and without failures is unhealthy where incidents left it so. -/
theorem healthy_after_eq_false (hhealthy : c.healthy = true) (hfailures : c.consecutiveFailures = 0)
    (n : UInt32) (incidents : List Incident) :
    (c.after n incidents).healthy = false ↔ Upset n incidents := by
  induction incidents using List.reverseRecOn with
  | nil => exact iff_of_false (by simp [after, hhealthy]) (not_upset_of_nil rfl)
  | append_singleton before i ih =>
    rw [after_concat]
    cases hheals : i.heals with
    | true =>
      refine iff_of_false (by simp [(meet_of_heals hheals).1]) (not_upset_of_nil ?_)
      exact sinceHealed_concat_of_heals before hheals
    | false =>
      cases i with
      | delivered | restored => simp [heals] at hheals
      | markedUnhealthy =>
        refine iff_of_true rfl (.inl ?_)
        rw [sinceHealed_concat before hheals]
        exact List.mem_append_right _ List.mem_cons_self
      | failed error =>
        -- The failure may count, and is not what marks a channel.
        have hmarked : Incident.markedUnhealthy ∈ sinceHealed (before ++ [.failed error]) ↔
            .markedUnhealthy ∈ sinceHealed before := by
          rw [sinceHealed_concat before hheals]
          simp
        unfold Upset at ih ⊢
        rw [hmarked, sinceHealed_concat before hheals, List.countP_append, List.countP_singleton]
        cases hcounts : (Incident.failed error).counts with
        | true =>
          -- The channel was unhealthy, or the word reaches the threshold: the same as that the
          -- count does.
          rw [(meet_of_counts hcounts).2, ih, consecutiveFailures_after hfailures, if_pos rfl,
            ← le_or_le_ofNat_add_one, and_or_left, or_assoc]
        | false => rw [meet_failed hcounts, ih, if_neg Bool.false_ne_true, Nat.add_zero]

/-- A channel that does not return to health is reported once, and not at all if it is unhealthy
already. -/
theorem count_reports_le (h : c.recoveries n incidents = 0) :
    (c.reports n incidents).count true ≤ if c.healthy then 1 else 0 := by
  induction incidents generalizing c with
  | nil => exact Nat.zero_le _
  | cons i rest ih =>
    obtain ⟨hstays, hrest⟩ := Nat.add_eq_zero_iff.mp h
    have hrest := ih hrest
    rw [reports, List.count_cons]
    cases hreport : (c.meet n i).2 with
    | true =>
      -- A report takes the channel from healthy to unhealthy, and without recovery it stays there.
      obtain ⟨hbefore, hbehind⟩ := healthy_of_report hreport
      rw [hbehind] at hrest
      rw [hbefore]
      exact Nat.add_le_add_right hrest 1
    | false =>
      refine hrest.trans ?_
      cases hbefore : c.healthy with
      | true => split <;> simp
      | false =>
        -- An unhealthy channel would return to health here, which was ruled out.
        have hbehind : ¬ (c.meet n i).1.healthy = true := fun hhealthy => by
          simp [hbefore, hhealthy] at hstays
        rw [if_neg hbehind]
        exact Nat.zero_le _

/-- How incidents bear on the health of a channel, whatever the threshold is. -/
structure FollowsIncidents (c : Channel) : Prop where
  unhealthy_iff : ∀ n incidents, (c.after n incidents).healthy = false ↔ Upset n incidents
  /-- Between two returns to health it is reported once at most that the channel is unhealthy. -/
  reported_le : ∀ n before incidents, (c.after n before).recoveries n incidents = 0 →
    ((c.after n before).reports n incidents).count true ≤ 1

/-- The health of a new channel follows what happens to it. -/
theorem FollowsIncidents.of_create {spec : ChannelSpec} {handles : ChannelType}
    (h : create spec handles = .ok c) : c.FollowsIncidents where
  unhealthy_iff n incidents := by
    obtain ⟨hhealthy, hfailures⟩ := health_create h
    exact healthy_after_eq_false hhealthy hfailures n incidents
  reported_le n before incidents hnone := by
    refine (count_reports_le hnone).trans ?_
    split <;> simp

/-! ## Channels of the same health -/

/-- Two states of a channel that incidents do the same to, as far as health is concerned. -/
structure SameHealth (c c' : Channel) : Prop where
  healthy : c'.healthy = c.healthy
  failures : c'.consecutiveFailures = c.consecutiveFailures

/-- A channel has the health of itself. -/
theorem SameHealth.refl (c : Channel) : c.SameHealth c := ⟨rfl, rfl⟩

/-- Having the same health can be chained. -/
theorem SameHealth.trans {c₁ c₂ c₃ : Channel} (h : c₁.SameHealth c₂) (h' : c₂.SameHealth c₃) :
    c₁.SameHealth c₃ :=
  ⟨h'.healthy.trans h.healthy, h'.failures.trans h.failures⟩

/-- One incident does the same to the health of both channels. -/
theorem SameHealth.meet (h : c.SameHealth c') (n : UInt32) (i : Incident) :
    (c.meet n i).1.SameHealth (c'.meet n i).1 := by
  cases i with
  | delivered | restored => exact ⟨rfl, rfl⟩
  | markedUnhealthy => exact ⟨rfl, h.failures⟩
  | failed error =>
    cases hcounts : (Incident.failed error).counts with
    | true =>
      -- The counters agree, and so both reach the threshold or neither does.
      simp only [Channel.meet, speaksAgainstChannel_eq, hcounts, if_true, recordAttemptFailure,
        h.failures]
      split
      · exact ⟨rfl, rfl⟩
      · exact ⟨h.healthy, rfl⟩
    | false =>
      rw [meet_failed hcounts, meet_failed hcounts]
      exact h

/-- Any number of incidents does the same to the health of both channels. -/
theorem SameHealth.after (h : c.SameHealth c') (n : UInt32) (incidents : List Incident) :
    (c.after n incidents).SameHealth (c'.after n incidents) := by
  induction incidents generalizing c c' with
  | nil => exact h
  | cons i rest ih => exact ih (h.meet n i)

/-- The limiter has no part in health. -/
theorem sameHealth_tryAcquire (c : Channel) (now : Instant) :
    c.SameHealth (c.tryAcquire now).1 := by
  unfold tryAcquire
  split <;> exact ⟨rfl, rfl⟩

end Klaxon.Channel
