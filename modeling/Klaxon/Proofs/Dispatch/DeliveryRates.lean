import Klaxon.Proofs.Dispatch.Ledger
import Klaxon.Proofs.Double.Operation

/-!
# The delivery rate of the last day

A report gives how many messages were sent, delivered and failed within the last day, and the
delivery rate of that day. Each of the three counts goes by the time of its own milestone. A message
that is retried for long may be sent before the day and delivered within it. Such outcomes are late
(`Entry.lateOutcomes`): they are what can be missing among the messages that were sent
(`Entry.countP_outcomes_le`). Where no outcome is late, the delivery rate is a rate (`IsRate`).

`run_lastDayRate` says so of every run whose clock does not go back, and `slowRetry_rate` is a run
with a late outcome: a message is delivered within the last day, and the rate is zero.
-/

namespace Klaxon

open Double

/-! ## Rates -/

/-- No more messages than were sent have an outcome, and the delivery rate is a number from zero to
one, and not zero if a message was delivered. -/
structure IsRate (count : Milestone → Nat) : Prop where
  le : count .delivered + count .failed ≤ count .sent
  nonneg : 0.0 ≤ deliveryRate (count .delivered) (count .sent)
  le_one : deliveryRate (count .delivered) (count .sent) ≤ 1.0
  eq_zero : (deliveryRate (count .delivered) (count .sent) == 0.0) = true → count .delivered = 0

/-- The quotient of two words as doubles, where the first one is not greater. -/
theorem value?_deliveryRate {delivered sent : Nat} (hle : delivered ≤ sent) (hpos : 0 < sent)
    (hsent : sent ≤ 2 ^ 64) :
    ∃ r, value? (deliveryRate delivered sent) = some r ∧ 0 ≤ r ∧ r ≤ 1 ∧
      (r = 0 → delivered = 0) := by
  have hx := value?_ofNat (hle.trans hsent)
  have hy := value?_ofNat hsent
  have hpq : nearestSize delivered ≤ nearestSize sent :=
    nearestSize_mono (Nat.cast_nonneg delivered) (by exact_mod_cast hle)
  have hp : 0 ≤ nearestSize delivered := nearestSize_nonneg (Nat.cast_nonneg delivered)
  have hqpos : 0 < nearestSize sent := zero_lt_one.trans_le (one_le_nearestSize_natCast hpos)
  -- A quotient of words that is not zero is not small.
  have hlow (hd : delivered ≠ 0) :
      (2 : ℚ) ^ (-64 : ℤ) ≤ nearestSize delivered / nearestSize sent := by
    have hone : 1 ≤ nearestSize delivered :=
      one_le_nearestSize_natCast (Nat.pos_of_ne_zero hd)
    calc (2 : ℚ) ^ (-64 : ℤ) = 1 / 2 ^ (64 : ℤ) := by rw [zpow_neg, one_div]
      _ ≤ nearestSize delivered / nearestSize sent :=
          div_le_div₀ hp hone hqpos (nearestSize_natCast_le hsent)
  -- Zero or above the smallest double: in both cases dividing does not lose the quotient.
  have hquotient : nearestSize delivered = 0 ∨
      2 ^ (-1074 : ℤ) ≤ nearestSize delivered / nearestSize sent := by
    rcases eq_or_ne delivered 0 with rfl | hd
    · exact .inl (by rw [Nat.cast_zero, nearestSize_zero])
    · exact .inr ((two_zpow_le_two_zpow.mpr (by norm_num)).trans (hlow hd))
  have hle_one : nearestSize (nearestSize delivered / nearestSize sent) ≤ 1 :=
    isDouble_one.nearestSize_le (div_nonneg hp hqpos.le) ((div_le_one hqpos).mpr hpq)
  refine ⟨_, ?_, nearestSize_nonneg (div_nonneg hp hqpos.le), hle_one, fun hr => ?_⟩
  · rw [deliveryRate, if_neg hpos.ne']
    exact (holds_div hx hy hqpos hquotient).value?_eq
      (hle_one.trans_lt (one_lt_zpow₀ one_lt_two (by norm_num)))
  · by_contra hd
    have hrate := (isDouble_two_zpow (by norm_num)).le_nearestSize (hlow hd)
    rw [hr] at hrate
    exact absurd hrate (two_zpow_pos _).not_ge

/-- Where no more messages than were sent have an outcome, the rate is a rate. -/
theorem isRate_of_le {count : Milestone → Nat}
    (hle : count .delivered + count .failed ≤ count .sent) (hsent : count .sent ≤ 2 ^ 64) :
    IsRate count := by
  -- Nothing sent makes the rate zero by definition; otherwise it is the rounded quotient.
  rcases (count .sent).eq_zero_or_pos with hnone | hpos
  · have hrate : deliveryRate (count .delivered) (count .sent) = 0.0 := by
      rw [deliveryRate, if_pos hnone]
    refine ⟨hle, ?_, ?_, fun _ => by omega⟩ <;> rw [hrate]
    · exact (le_iff value?_zero value?_zero).mpr le_rfl
    · exact (le_iff value?_zero value?_one).mpr zero_le_one
  · obtain ⟨r, hr, hnonneg, hle_one, hzero⟩ :=
      value?_deliveryRate ((Nat.le_add_right _ _).trans hle) hpos hsent
    exact ⟨hle, (le_iff value?_zero hr).mpr hnonneg, (le_iff hr value?_one).mpr hle_one,
      fun h => hzero ((beq_iff hr value?_zero).mp h)⟩

/-! ## Late outcomes -/

namespace Entry

variable {entries : List Entry} {start : Instant}

/-- Whether an entry is an outcome behind a time. -/
def endsAfter (start : Instant) (z : Entry) : Bool := z.isOutcome && decide (start < z.time)

/-- Whether an entry is a first attempt behind a time. -/
def beginsAfter (start : Instant) (y : Entry) : Bool :=
  y.milestone == .sent && decide (start < y.time)

/-- Whether the message of an entry was tried up to a time. -/
def isBegun (entries : List Entry) (start : Instant) (z : Entry) : Bool :=
  entries.any fun y =>
    y.messageId == z.messageId && (y.milestone == .sent && decide (y.time ≤ start))

/-- The number of outcomes behind a time whose messages were tried up to then. -/
def lateOutcomes (entries : List Entry) (start : Instant) : Nat :=
  entries.countP fun z => z.endsAfter start && z.isBegun entries start

/-- A message that was first tried, but not up to a time, was so behind it. -/
theorem exists_beginsAfter {z : Entry} (hlate : z.isBegun entries start = false)
    (hsent : ∃ y ∈ entries, y.milestone = .sent ∧ y.messageId = z.messageId) :
    ∃ y ∈ entries, y.beginsAfter start = true ∧ y.messageId = z.messageId := by
  obtain ⟨y, hy, hmilestone, hid⟩ := hsent
  have hnot := List.any_eq_false.mp hlate y hy
  simp only [hid, hmilestone, beq_self_eq_true, Bool.true_and, decide_eq_true_eq] at hnot
  refine ⟨y, hy, ?_, hid⟩
  simp only [beginsAfter, hmilestone, beq_self_eq_true, Bool.true_and, decide_eq_true_eq]
  exact Int.not_le.mp hnot

/-- Where messages have one outcome at most, and none without a first attempt, the outcomes behind a
time are late, or as many messages were first tried behind it. -/
theorem countP_endsAfter_le
    (hnodup : ((entries.filter isOutcome).map messageId).Nodup)
    (hsent : ∀ z ∈ entries, z.isOutcome = true →
      ∃ y ∈ entries, y.milestone = .sent ∧ y.messageId = z.messageId) :
    entries.countP (endsAfter start) ≤
      entries.countP (beginsAfter start) + lateOutcomes entries start := by
  have hsplit := List.countP_eq_countP_filter_add entries (endsAfter start)
    (isBegun entries start)
  rw [List.countP_filter, List.countP_filter] at hsplit
  -- The outcomes that are not late are of different messages, all of them first tried in time.
  have hprompt : (entries.countP fun z => z.endsAfter start && !z.isBegun entries start) ≤
      entries.countP (beginsAfter start) := by
    rw [List.countP_eq_length_filter, List.countP_eq_length_filter,
      ← List.length_map messageId, ← List.length_map messageId]
    refine (List.subperm_of_subset (hnodup.sublist (List.Sublist.map _ ?_)) ?_).length_le
    · refine List.monotone_filter_right entries fun z hz => ?_
      simp only [endsAfter, Bool.and_eq_true] at hz
      exact hz.1.1
    · intro id hid
      obtain ⟨z, hz, rfl⟩ := List.mem_map.mp hid
      obtain ⟨hz, hends⟩ := List.mem_filter.mp hz
      simp only [endsAfter, Bool.and_eq_true, Bool.not_eq_true'] at hends
      obtain ⟨y, hy, hbegins, hsame⟩ := exists_beginsAfter hends.2 (hsent z hz hends.1.1)
      exact List.mem_map.mpr ⟨y, List.mem_filter.mpr ⟨hy, hbegins⟩, hsame⟩
  unfold lateOutcomes
  omega

end Entry

/-! ## What a report counts -/

/-- The outcomes among recent milestones. -/
theorem Statistics.recentCount_outcomes (s : Statistics) :
    s.recentCount .delivered + s.recentCount .failed = s.recent.countP fun x => x.2 != .sent := by
  unfold recentCount
  induction s.recent with
  | nil => rfl
  | cons x rest ih =>
    obtain ⟨_, k⟩ := x
    simp only [List.countP_cons]
    cases k <;> simp <;> omega

namespace Engine

variable {e : Engine} {entries : List Entry} {now : Instant}

/-- The counts of a report for the last day. -/
def lastDayCount (e : Engine) (now : Instant) : Milestone → Nat :=
  (e.report now).1.statistics.recentCount

/-- Tidied up at a time, the recent milestones remember the day that ends there. -/
theorem Entered.remembers_prune (h : e.Entered entries now) :
    Statistics.Remembers (e.statistics.prune now).recent (entries.map Entry.stamp)
      (now.sub Time.day) :=
  h.remembers.drop (Int.le_refl _)

/-- A report counts the outcomes of its day. -/
theorem Entered.countP_outcomes (h : e.Entered entries now) :
    e.lastDayCount now .delivered + e.lastDayCount now .failed =
      entries.countP (Entry.endsAfter (now.sub Time.day)) := by
  have hordered : e.statistics.recent.Pairwise fun a b => b.2 ≠ .sent → a.1 ≤ b.1 :=
    h.remembers.pairwise <| List.pairwise_map.mpr <|
      h.ordered.imp fun hxy hk => hxy (bne_iff_ne.mpr hk)
  -- A first attempt may hide behind something later, but an outcome does not.
  have hnew : ∀ x ∈ (e.statistics.prune now).recent, (x.2 != .sent) = true →
      now.sub Time.day < x.1 := fun x hx hk =>
    Statistics.lt_of_mem_dropWhile (p := (· ≠ .sent)) (bne_iff_ne.mp hk) hordered hx
  calc e.lastDayCount now .delivered + e.lastDayCount now .failed
      = (e.statistics.prune now).recent.countP fun x => x.2 != .sent :=
        (e.statistics.prune now).recentCount_outcomes
    _ = (entries.map Entry.stamp).countP fun x => x.2 != .sent && decide (now.sub Time.day < x.1) :=
        h.remembers_prune.countP_eq (p := (· != .sent)) hnew
    _ = entries.countP (Entry.endsAfter (now.sub Time.day)) := List.countP_map

/-- A report counts the first attempts of its day. It may count others, which were recorded behind
something later. -/
theorem Entered.countP_beginsAfter_le (h : e.Entered entries now) :
    entries.countP (Entry.beginsAfter (now.sub Time.day)) ≤ e.lastDayCount now .sent := by
  calc entries.countP (Entry.beginsAfter (now.sub Time.day))
      = (entries.map Entry.stamp).countP fun x =>
          x.2 == .sent && decide (now.sub Time.day < x.1) := by
        rw [List.countP_map]
        rfl
    _ ≤ (e.statistics.prune now).recent.countP fun x => x.2 == .sent :=
        h.remembers_prune.countP_le fun k => k == .sent

/-- A report behind a run whose clock does not go back has no more outcomes of its day than messages
that were sent, but for the late ones. Without them the delivery rate is a rate, as long as the
count of the messages that were sent is a word of 64 bits. -/
theorem run_lastDayRate (registry : Registry) (templates : TemplateStore) (directory : Directory)
    (policy : Policy) (idSupply : IdSupply) {turns : List (Instant × Turn)} {now : Instant}
    (hclock : (turns.map Prod.fst ++ [now]).Pairwise (· ≤ ·)) :
    let e₀ := create registry templates directory policy idSupply
    let count := (e₀.run turns).lastDayCount now
    let late := Entry.lateOutcomes (e₀.ledger turns) (now.sub Time.day)
    ((e₀.run turns).report now).2.member? "last_24_hours" =
        some (Statistics.lastDayBlock count) ∧
      count .delivered + count .failed ≤ count .sent + late ∧
      (late = 0 → count .sent ≤ 2 ^ 64 → IsRate count) := by
  intro e₀ count late
  have hstart : Sound e₀ e₀ [] := create_sound registry templates directory policy idSupply
  have hentered : (e₀.run turns).Entered (e₀.ledger turns) now :=
    run_entered registry templates directory policy idSupply hclock
  have hnodup : (((e₀.ledger turns).filter Entry.isOutcome).map Entry.messageId).Nodup := by
    rw [filter_isOutcome_ledger]
    exact (hstart.run turns).nodup_outcomes
  have hle : count .delivered + count .failed ≤ count .sent + late :=
    calc count .delivered + count .failed
        = (e₀.ledger turns).countP (Entry.endsAfter (now.sub Time.day)) := hentered.countP_outcomes
      _ ≤ (e₀.ledger turns).countP (Entry.beginsAfter (now.sub Time.day)) + late :=
          Entry.countP_endsAfter_le hnodup fun z hz ho => hstart.sent_of_outcome hz ho
      _ ≤ count .sent + late := Nat.add_le_add_right hentered.countP_beginsAfter_le late
  -- The report shows the counts of the tidied milestones, which the bound is about.
  refine ⟨Statistics.member?_snapshot _ _ _, hle, fun hlate hsent => isRate_of_le ?_ hsent⟩
  rw [hlate] at hle
  exact hle

/-- Two messages are delivered within the hour, one of them by its second attempt. -/
theorem deferredAndRetried_lastDayRate :
    (deferredAndRetried.map Prod.fst ++ [Instant.epoch.add Time.hour]).Pairwise (· ≤ ·) ∧
      let e := (create [hook] .withDefaults [] deferring).run deferredAndRetried
      let count := e.lastDayCount (Instant.epoch.add Time.hour)
      count .sent = 2 ∧ count .delivered = 2 ∧
        (e.report (Instant.epoch.add Time.hour)).2.member? "last_24_hours" =
          some (Statistics.lastDayBlock count) ∧
        IsRate count := by
  have hclock : (deferredAndRetried.map Prod.fst ++
      [Instant.epoch.add Time.hour]).Pairwise (· ≤ ·) := by
    decide +kernel
  have hsent : ((create [hook] .withDefaults [] deferring).run deferredAndRetried).lastDayCount
      (Instant.epoch.add Time.hour) .sent = 2 := by
    decide +kernel
  have hprompt : Entry.lateOutcomes
      ((create [hook] .withDefaults [] deferring).ledger deferredAndRetried)
      ((Instant.epoch.add Time.hour).sub Time.day) = 0 := by
    decide +kernel
  obtain ⟨hreport, -, hrate⟩ :=
    run_lastDayRate [hook] .withDefaults [] deferring .numbered hclock
  refine ⟨hclock, hsent, by decide +kernel, hreport, hrate hprompt ?_⟩
  rw [hsent]
  norm_num

/-- A channel that is tried once more after a day. -/
def slowHook : Channel :=
  { hook with spec := { hook.spec with retryPolicy := ⟨1, 86400000, 1.0, 86400000⟩ } }

/-- The first attempt fails, and the second one a day later is taken. -/
def slowRetry : List (Instant × Turn) :=
  tryOnce "m1" (.error (.http "no answer")) ++
    [(Instant.epoch.add Time.day, .fire ⟨"m1", .normal, Instant.epoch.add Time.day⟩)] ++
    pullAndTry (Instant.epoch.add Time.day) "m1" (.ok .silent)

/-- A message that was sent a day ago is delivered now, so that the rate of the last day is zero. -/
theorem slowRetry_rate :
    Channel.create slowHook.spec .webhook = .ok slowHook ∧
      (slowRetry.map Prod.fst ++ [Instant.epoch.add Time.day]).Pairwise (· ≤ ·) ∧
      Turn.OnlyDue slowRetry ∧
      let e₀ := create [slowHook] .withDefaults [] .standard
      let count := (e₀.run slowRetry).lastDayCount (Instant.epoch.add Time.day)
      Entry.lateOutcomes (e₀.ledger slowRetry) ((Instant.epoch.add Time.day).sub Time.day) = 1 ∧
        count .sent = 0 ∧ count .delivered = 1 ∧
        (deliveryRate (count .delivered) (count .sent) == 0.0) = true ∧ ¬ IsRate count := by
  have hsent : ((create [slowHook] .withDefaults [] .standard).run slowRetry).lastDayCount
      (Instant.epoch.add Time.day) .sent = 0 := by
    decide +kernel
  have hdelivered : ((create [slowHook] .withDefaults [] .standard).run slowRetry).lastDayCount
      (Instant.epoch.add Time.day) .delivered = 1 := by
    decide +kernel
  refine ⟨rfl, by decide +kernel, by decide +kernel, by decide +kernel, hsent, hdelivered, ?_,
    fun hrate => ?_⟩
  · rw [hsent, deliveryRate, if_pos rfl]
    exact (beq_iff value?_zero value?_zero).mpr rfl
  · have hle := hrate.le
    rw [hsent, hdelivered] at hle
    omega

end Engine

end Klaxon
