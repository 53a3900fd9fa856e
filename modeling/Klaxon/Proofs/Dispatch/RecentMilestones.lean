import Klaxon.Dispatch.Engine
import Klaxon.Proofs.Json.Records

/-!
# The milestones of the last day

The statistics drop old milestones from the front of their list, at every record and at every
report. `Remembers` says what that leaves of everything that was recorded: it is split in two, and
what is gone is old. Records and drops keep this (`Records`), whatever was dropped before, so that
it does not matter how often the list was pruned.

What is dropped is not all that is old, as the front of the list stops the drop. It is if the list
is in the order of time (`lt_of_mem_dropWhile`). Then a report counts what was recorded within the
day before it, neither more nor less (`report_countsLastDay`).
-/

namespace Klaxon

namespace Statistics

/-! ## What is remembered -/

/-- The drop of what is old leaves nothing old, except for what is not in the order of time: no
milestone stays that is old and no earlier than those before it. -/
theorem lt_of_mem_dropWhile {p : Milestone → Prop} {upTo : Instant} {x : Instant × Milestone}
    (hp : p x.2) :
    ∀ {l : List (Instant × Milestone)}, l.Pairwise (fun a b => p b.2 → a.1 ≤ b.1) →
      x ∈ l.dropWhile (fun m => decide (m.1 ≤ upTo)) → upTo < x.1
  | [], _, hx => by simp at hx
  | a :: rest, hordered, hx => by
    obtain ⟨ha, hrest⟩ := List.pairwise_cons.mp hordered
    rw [List.dropWhile_cons] at hx
    split at hx
    · exact lt_of_mem_dropWhile hp hrest hx
    · next hnew =>
      -- The first milestone that stays is new; those of the kind behind it are no earlier.
      have hlt : upTo < a.1 := Int.not_le.mp fun hle => hnew (decide_eq_true hle)
      rcases List.mem_cons.mp hx with rfl | hx
      · exact hlt
      · exact Int.lt_of_lt_of_le hlt (ha x hx hp)

/-- A list holds the end of all that was recorded, and the rest is no later than a time. -/
def Remembers (recent recorded : List (Instant × Milestone)) (upTo : Instant) : Prop :=
  ∃ old, recorded = old ++ recent ∧ ∀ x ∈ old, x.1 ≤ upTo

namespace Remembers

variable {recent recorded : List (Instant × Milestone)} {upTo : Instant}

/-- Nothing is forgotten. -/
theorem refl (recorded : List (Instant × Milestone)) (upTo : Instant) :
    Remembers recorded recorded upTo :=
  ⟨[], rfl, fun _ hx => by simp at hx⟩

/-- A milestone is recorded. -/
theorem concat (h : Remembers recent recorded upTo) (x : Instant × Milestone) :
    Remembers (recent ++ [x]) (recorded ++ [x]) upTo := by
  obtain ⟨old, hsplit, hold⟩ := h
  exact ⟨old, by rw [hsplit, List.append_assoc], hold⟩

/-- More of it is dropped. -/
theorem drop (h : Remembers recent recorded upTo) {cutoff : Instant} (hle : cutoff ≤ upTo) :
    Remembers (recent.dropWhile fun m => decide (m.1 ≤ cutoff)) recorded upTo := by
  obtain ⟨old, hsplit, hold⟩ := h
  refine ⟨old ++ recent.takeWhile fun m => decide (m.1 ≤ cutoff), ?_, fun x hx => ?_⟩
  · rw [List.append_assoc, List.takeWhile_append_dropWhile, hsplit]
  · -- What is gone was dropped before or is dropped now, which takes what is no later than the
    -- cutoff.
    rcases List.mem_append.mp hx with hx | hx
    · exact hold x hx
    · have hcut := List.all_eq_true.mp List.all_takeWhile x hx
      exact Int.le_trans (of_decide_eq_true hcut) hle

/-- What is remembered is in the same order as all that was recorded. -/
theorem pairwise (h : Remembers recent recorded upTo)
    {r : Instant × Milestone → Instant × Milestone → Prop} (hr : recorded.Pairwise r) :
    recent.Pairwise r := by
  obtain ⟨old, rfl, -⟩ := h
  exact (List.pairwise_append.mp hr).2.1

/-- All that was recorded later than what was dropped is remembered. -/
theorem countP_late (h : Remembers recent recorded upTo) (p : Milestone → Bool) :
    (recorded.countP fun x => p x.2 && decide (upTo < x.1)) =
      recent.countP fun x => p x.2 && decide (upTo < x.1) := by
  obtain ⟨old, rfl, hold⟩ := h
  -- Nothing that is gone is as late as that.
  have hnone : (old.countP fun x => p x.2 && decide (upTo < x.1)) = 0 := by
    refine List.countP_eq_zero.mpr fun x hx hcounted => ?_
    obtain ⟨-, hlate⟩ := Bool.and_eq_true_iff.mp hcounted
    exact absurd (hold x hx) (Int.not_le.mpr (of_decide_eq_true hlate))
  rw [List.countP_append, hnone, Nat.zero_add]

/-- So a count of what is remembered counts it. -/
theorem countP_le (h : Remembers recent recorded upTo) (p : Milestone → Bool) :
    (recorded.countP fun x => p x.2 && decide (upTo < x.1)) ≤ recent.countP fun x => p x.2 := by
  rw [h.countP_late]
  exact List.countP_mono_left fun x _ hx => (Bool.and_eq_true_iff.mp hx).1

/-- It counts nothing else if nothing of that kind stayed that is as old. -/
theorem countP_eq (h : Remembers recent recorded upTo) {p : Milestone → Bool}
    (hnew : ∀ x ∈ recent, p x.2 = true → upTo < x.1) :
    (recent.countP fun x => p x.2) =
      recorded.countP fun x => p x.2 && decide (upTo < x.1) := by
  rw [h.countP_late]
  refine List.countP_congr fun x hx => ?_
  simp only [Bool.and_eq_true, decide_eq_true_eq]
  exact ⟨fun hp => ⟨hp, hnew x hx hp⟩, fun h => h.1⟩

end Remembers

/-- Between two states of the statistics milestones are recorded, and none is dropped that is later
than a time. -/
def Records (s s' : Statistics) (milestones : List (Instant × Milestone)) (upTo : Instant) : Prop :=
  ∀ recorded, Remembers s.recent recorded upTo → Remembers s'.recent (recorded ++ milestones) upTo

namespace Records

variable {s s' s'' : Statistics} {xs ys : List (Instant × Milestone)} {upTo : Instant}

/-- Nothing that is recent changes. -/
theorem of_recent_eq (h : s'.recent = s.recent) : Records s s' [] upTo := fun recorded hs => by
  rw [List.append_nil, h]
  exact hs

/-- What is recorded in two stretches is recorded in one. -/
theorem trans (h : Records s s' xs upTo) (h' : Records s' s'' ys upTo) :
    Records s s'' (xs ++ ys) upTo := fun recorded hs => by
  rw [← List.append_assoc]
  exact h' _ (h recorded hs)

/-- Statistics are pruned. -/
theorem prune (s : Statistics) {t now : Instant} (ht : t ≤ now) :
    Records s (s.prune t) [] (now.sub Time.day) := fun recorded hs => by
  rw [List.append_nil]
  exact hs.drop (Int.sub_le_sub_right ht _)

/-- A milestone is recorded. -/
theorem record (s : Statistics) (k : Milestone) (priority : Priority) (count : Tally → Tally)
    {t now : Instant} (ht : t ≤ now) :
    Records s (s.record k priority count t) [(t, k)] (now.sub Time.day) := fun _ hs =>
  (hs.concat (t, k)).drop (Int.sub_le_sub_right ht _)

end Records

/-! ## Calls of the recorder -/

/-- A call of the statistics. -/
inductive Call where
  | sent (priority : Priority)
  | delivered (priority : Priority) (latencyMs : UInt64)
  | failed (priority : Priority)
  | suppressed
  | cancelled
  | snapshot

/-- The milestone that a call records. -/
def Call.milestone? : Call → Option Milestone
  | .sent _ => some .sent
  | .delivered .. => some .delivered
  | .failed _ => some .failed
  | .suppressed | .cancelled | .snapshot => none

/-- Answers a call. -/
def answer (s : Statistics) (now : Instant) : Call → Statistics
  | .sent priority => s.recordSent priority now
  | .delivered priority latencyMs => s.recordDelivered priority latencyMs now
  | .failed priority => s.recordFailed priority now
  | .suppressed => s.recordSuppressed
  | .cancelled => s.recordCancelled
  | .snapshot => s.prune now

/-- Answers calls one after the other. -/
def answerAll (s : Statistics) (calls : List (Instant × Call)) : Statistics :=
  calls.foldl (fun s c => s.answer c.1 c.2) s

/-- The milestones that calls record, each with the time of its call. -/
def milestones (calls : List (Instant × Call)) : List (Instant × Milestone) :=
  calls.filterMap fun c => c.2.milestone?.map fun k => (c.1, k)

/-- How many milestones of a kind calls recorded within the day up to a time: a milestone that is a
day old does not count. -/
def countLastDay (calls : List (Instant × Call)) (now : Instant) (k : Milestone) : Nat :=
  (milestones calls).countP fun x =>
    x.2 == k && (decide (now.sub Time.day < x.1) && decide (x.1 ≤ now))

/-- A call up to a time records its milestone. -/
theorem answer_records (s : Statistics) {t now : Instant} (ht : t ≤ now) (c : Call) :
    Records s (s.answer t c) (milestones [(t, c)]) (now.sub Time.day) := by
  cases c with
  | sent => exact .record s _ _ _ ht
  | delivered => exact .record s _ _ _ ht
  | failed => exact .record s _ _ _ ht
  | suppressed | cancelled => exact .of_recent_eq rfl
  | snapshot => exact .prune s ht

/-- Calls up to a time record their milestones. -/
theorem answerAll_records (s : Statistics) {calls : List (Instant × Call)} {now : Instant}
    (hcalls : ∀ c ∈ calls, c.1 ≤ now) :
    Records s (s.answerAll calls) (milestones calls) (now.sub Time.day) := by
  induction calls generalizing s with
  | nil => exact .of_recent_eq rfl
  | cons c rest ih =>
    obtain ⟨hc, hrest⟩ := List.forall_mem_cons.mp hcalls
    -- The first call and the rest record one after the other.
    have hmilestones : milestones (c :: rest) = milestones [c] ++ milestones rest :=
      List.filterMap_append (l := [c])
    rw [hmilestones]
    exact (s.answer_records hc c.2).trans (ih _ hrest)

/-- What calls record is in the order of time if the calls are. -/
theorem pairwise_milestones {calls : List (Instant × Call)}
    (h : (calls.map Prod.fst).Pairwise (· ≤ ·)) :
    (milestones calls).Pairwise fun a b => a.1 ≤ b.1 := by
  refine List.Pairwise.filterMap _ ?_ (List.pairwise_map.mp h)
  intro c d hle x hx y hy
  obtain ⟨k, -, rfl⟩ := Option.map_eq_some_iff.mp hx
  obtain ⟨l, -, rfl⟩ := Option.map_eq_some_iff.mp hy
  exact hle

/-- What calls record is recorded at the time of one of them. -/
theorem le_of_mem_milestones {calls : List (Instant × Call)} {now : Instant}
    (h : ∀ c ∈ calls, c.1 ≤ now) {x : Instant × Milestone} (hx : x ∈ milestones calls) :
    x.1 ≤ now := by
  obtain ⟨c, hc, hx⟩ := List.mem_filterMap.mp hx
  obtain ⟨k, -, rfl⟩ := Option.map_eq_some_iff.mp hx
  exact h c hc

/-- With calls in the order of time, the statistics count what was recorded within the last day, as
soon as they are pruned. -/
theorem recentCount_prune_answerAll {calls : List (Instant × Call)} {now : Instant}
    (hordered : (calls.map Prod.fst ++ [now]).Pairwise (· ≤ ·)) (k : Milestone) :
    ((empty.answerAll calls).prune now).recentCount k = countLastDay calls now k := by
  obtain ⟨hcalls, -, hlast⟩ := List.pairwise_append.mp hordered
  have hle : ∀ c ∈ calls, c.1 ≤ now := fun c hc =>
    hlast c.1 (List.mem_map_of_mem hc) now (List.mem_singleton_self now)
  have hkept : Remembers (empty.answerAll calls).recent (milestones calls) (now.sub Time.day) :=
    empty.answerAll_records hle [] (.refl [] _)
  -- The list is in the order of time, so that nothing old hides behind its front.
  have hsorted : (empty.answerAll calls).recent.Pairwise fun a b => a.1 ≤ b.1 :=
    hkept.pairwise (pairwise_milestones hcalls)
  have hnew : ∀ x ∈ ((empty.answerAll calls).prune now).recent, (x.2 == k) = true →
      now.sub Time.day < x.1 := fun x hx _ =>
    lt_of_mem_dropWhile (p := fun _ => True) trivial (hsorted.imp fun hab _ => hab) hx
  have hpruned : Remembers ((empty.answerAll calls).prune now).recent (milestones calls)
      (now.sub Time.day) :=
    hkept.drop (Int.le_refl _)
  unfold recentCount countLastDay
  rw [hpruned.countP_eq (p := fun l => l == k) hnew]
  refine List.countP_congr fun x hx => ?_
  simp [le_of_mem_milestones hle hx]

/-- The part of a report about the last day. -/
def lastDayBlock (count : Milestone → Nat) : Json :=
  Json.ofMembers
    [("sent", toJson (count .sent)), ("delivered", toJson (count .delivered)),
      ("failed", toJson (count .failed)),
      ("delivery_rate", toJson (deliveryRate (count .delivered) (count .sent)))]

/-- Where that part stands. -/
theorem member?_snapshot (s : Statistics) (registry : Registry) (lanes : Lanes) :
    (s.snapshot registry lanes).member? "last_24_hours" = some (lastDayBlock s.recentCount) := by
  simp [snapshot, Json.ofMembers, Json.member?, lastDayBlock]

end Statistics

open Statistics

/-- A report gives what was recorded within the day before it, whatever calls and reports there were
before, and is one of the calls itself. -/
theorem Engine.report_countsLastDay {calls : List (Instant × Statistics.Call)} {now : Instant}
    (hordered : (calls.map Prod.fst ++ [now]).Pairwise (· ≤ ·)) {e : Engine}
    (he : e.statistics = Statistics.empty.answerAll calls) :
    (e.report now).2.member? "last_24_hours" = some (lastDayBlock (countLastDay calls now)) ∧
      (e.report now).1.statistics = Statistics.empty.answerAll (calls ++ [(now, .snapshot)]) := by
  have hpruned : (e.report now).1.statistics = (Statistics.empty.answerAll calls).prune now :=
    congrArg (fun s => Statistics.prune s now) he
  constructor
  · have hcounts : (e.report now).1.statistics.recentCount = countLastDay calls now := by
      funext k
      rw [hpruned, recentCount_prune_answerAll hordered]
    rw [← hcounts]
    exact member?_snapshot _ _ _
  · rw [hpruned, answerAll, answerAll, List.foldl_append]
    rfl

/-- A day of calls: a message is sent and delivered a second later. After a day there is a report,
and another message fails. Then the first milestone does not count any more. -/
theorem Engine.dayOfCalls_countsLastDay :
    let day : Instant := ⟨Time.day, false⟩
    let calls : List (Instant × Statistics.Call) :=
      [(⟨0, false⟩, .sent .high), (⟨Time.second, false⟩, .delivered .high 1000),
        (day, .snapshot), (day, .failed .low)]
    let e := { create [] .withDefaults [] .standard with
      statistics := Statistics.empty.answerAll calls }
    (calls.map Prod.fst ++ [day]).Pairwise (· ≤ ·) ∧
      countLastDay calls day .sent = 0 ∧ countLastDay calls day .delivered = 1 ∧
      countLastDay calls day .failed = 1 ∧
      (e.report day).2.member? "last_24_hours" = some (lastDayBlock (countLastDay calls day)) ∧
      (e.report day).1.statistics = Statistics.empty.answerAll (calls ++ [(day, .snapshot)]) := by
  intro day calls e
  have hordered : (calls.map Prod.fst ++ [day]).Pairwise (· ≤ ·) := by decide
  exact ⟨hordered, by decide, by decide, by decide, report_countsLastDay hordered (e := e) rfl⟩

end Klaxon
