import Klaxon.Channel.RateLimit
import Klaxon.Proofs.Dispatch.Windows

/-!
# The grants of a limiter

A limiter forgets its grants after an hour, and counts those of the last minute from the latest one
back. `Limiter.isExact_of_ordered` says that it still answers like one that remembers every grant
and counts them all (`RateLimit.answers`), as long as it is asked in the order of time. So the
bounds hold for every hour and every minute, wherever it begins; a request is refused only where one
of the two windows that end with it is full; and a refusal leaves no trace.

The grants that are remembered are the last ones, and no other one counts for a window that ends now
or later (`Limiter.Represents`). One request keeps this (`Represents.tryAcquire`), and by induction
every run does (`Represents.after`).
-/

namespace Klaxon

namespace RateLimit

/-- Whether both bounds leave room for a request behind all grants before it. -/
def HasRoom (limit : RateLimit) (grants : List Instant) (now : Instant) : Prop :=
  (limit.perHour = 0 ∨ countWithin (now.sub Time.hour) now grants < limit.perHour.toNat) ∧
  (limit.perMinute = 0 ∨
    countWithin (now.sub Time.minute) now grants < limit.perMinute.toNat + limit.burst.toNat)

instance (limit : RateLimit) (grants : List Instant) (now : Instant) :
    Decidable (limit.HasRoom grants now) := by
  unfold HasRoom
  infer_instance

/-- The answers to requests where every grant is remembered. -/
def answers (limit : RateLimit) (grants : List Instant) : List Instant → List Bool
  | [] => []
  | now :: rest =>
    if limit.HasRoom grants now then true :: answers limit (grants ++ [now]) rest
    else false :: answers limit grants rest

end RateLimit

namespace Limiter

/-- The answers to requests. -/
def answers (l : Limiter) : List Instant → List Bool
  | [] => []
  | now :: rest => (l.tryAcquire now).2 :: (l.tryAcquire now).1.answers rest

/-- The limiter after requests. -/
def after (l : Limiter) : List Instant → Limiter
  | [] => l
  | now :: rest => (l.tryAcquire now).1.after rest

/-- The requests that are granted. -/
def grants (l : Limiter) : List Instant → List Instant
  | [] => []
  | now :: rest =>
    (if (l.tryAcquire now).2 then [now] else []) ++ (l.tryAcquire now).1.grants rest

/-! ## Counting -/

/-- What is not forgotten lies behind the time up to which grants are dropped. -/
theorem lt_of_mem_forget {granted : List Instant} (hsorted : granted.Pairwise (· ≤ ·))
    {upTo t : Instant} (ht : t ∈ forget granted upTo) : upTo < t := by
  induction granted with
  | nil => simp [forget] at ht
  | cons a rest ih =>
    obtain ⟨ha, hrest⟩ := List.pairwise_cons.mp hsorted
    rw [forget, List.dropWhile_cons] at ht
    split at ht
    · -- The first grant is dropped, and so it tells nothing about the others.
      exact ih hrest ht
    · next hnew =>
      -- The first grant stays, and in a sorted list the others are not before it.
      have hlt : upTo < a := Int.not_le.mp fun hle => hnew (decide_eq_true hle)
      rcases List.mem_cons.mp ht with rfl | ht
      · exact hlt
      · exact Int.lt_of_lt_of_le hlt (ha t ht)

/-- The remembered grants are as many as lie behind the time up to which grants are dropped. -/
theorem length_forget {granted : List Instant} (hsorted : granted.Pairwise (· ≤ ·))
    (upTo : Instant) : (forget granted upTo).length = Klaxon.countAfter upTo granted := by
  rw [← countAfter_dropWhile (Int.le_refl upTo.nanos) granted]
  symm
  exact List.countP_eq_length.mpr fun t ht => decide_eq_true (lt_of_mem_forget hsorted ht)

/-- Behind a time lie the grants that are met from the latest one back until the first old one. -/
theorem countAfter_eq {granted : List Instant} (hsorted : granted.Pairwise (· ≤ ·))
    (start : Instant) : countAfter granted start = Klaxon.countAfter start granted := by
  unfold countAfter Klaxon.countAfter
  rw [← List.countP_reverse]
  have hback : granted.reverse.Pairwise fun a b => b ≤ a := List.pairwise_reverse.mpr hsorted
  -- Counting starts from the latest grant, so that the induction is on the reversed list.
  generalize granted.reverse = back at hback ⊢
  induction back with
  | nil => rfl
  | cons a rest ih =>
    obtain ⟨ha, hrest⟩ := List.pairwise_cons.mp hback
    rw [List.takeWhile_cons, List.countP_cons]
    by_cases hnew : start < a
    · simp [hnew, ih hrest]
    · -- The first old grant ends the walk, and whatever lies before it is older still.
      have hold : rest.countP (fun t => decide (start < t)) = 0 := by
        refine List.countP_eq_zero.mpr fun t ht hlt => hnew ?_
        exact Int.lt_of_lt_of_le (of_decide_eq_true hlt) (ha t ht)
      simp [hnew, hold]

/-! ## One request -/

/-- A limiter knows of all grants up to now what counts for the windows that end now or later. -/
structure Represents (limit : RateLimit) (l : Limiter) (grants : List Instant)
    (now : Instant) : Prop where
  limit_eq : l.limit = limit
  sorted : grants.Pairwise (· ≤ ·)
  past : ∀ t ∈ grants, t ≤ now
  granted : l.granted.Sublist grants
  /-- Without bounds nothing is remembered. -/
  same : limit.isUnlimited = false → ∀ start, now.sub Time.hour ≤ start →
    Klaxon.countAfter start l.granted = Klaxon.countAfter start grants
  hour_le : limit.perHour ≠ 0 → ∀ t : Instant,
    countWithin (t.sub Time.hour) t grants ≤ limit.perHour.toNat
  minute_le : limit.perMinute ≠ 0 → ∀ t : Instant,
    countWithin (t.sub Time.minute) t grants ≤ limit.perMinute.toNat + limit.burst.toNat

variable {limit : RateLimit} {l : Limiter} {grants : List Instant} {last now : Instant}

/-- A new limiter knows of no grants, and there are none. -/
theorem represents_ofLimit (limit : RateLimit) (now : Instant) :
    Represents limit (ofLimit limit) [] now where
  limit_eq := rfl
  sorted := .nil
  past t ht := by simp at ht
  granted := .slnil
  same _ _ _ := rfl
  hour_le _ _ := Nat.zero_le _
  minute_le _ _ := Nat.zero_le _

/-- Time goes on. -/
theorem Represents.mono (h : Represents limit l grants last) (hnow : last ≤ now) :
    Represents limit l grants now where
  limit_eq := h.limit_eq
  sorted := h.sorted
  past t ht := Int.le_trans (h.past t ht) hnow
  granted := h.granted
  same hbounded start hstart := by
    refine h.same hbounded start ?_
    simp only [Instant.le_def, Instant.nanos_sub] at *
    omega
  hour_le := h.hour_le
  minute_le := h.minute_le

/-- Old grants are forgotten. -/
theorem Represents.forget (h : Represents limit l grants now) :
    Represents limit ⟨limit, Limiter.forget l.granted (now.sub Time.hour)⟩ grants now where
  limit_eq := rfl
  sorted := h.sorted
  past := h.past
  granted := (List.dropWhile_sublist _).trans h.granted
  same hbounded start hstart :=
    (countAfter_dropWhile hstart l.granted).trans (h.same hbounded start hstart)
  hour_le := h.hour_le
  minute_le := h.minute_le

/-- A grant that there is room for is remembered. -/
theorem Represents.grant (h : Represents limit l grants now) (hroom : limit.HasRoom grants now) :
    Represents limit ⟨limit, l.granted ++ [now]⟩ (grants ++ [now]) now where
  limit_eq := rfl
  sorted := List.pairwise_append.mpr ⟨h.sorted, List.pairwise_singleton _ _,
    fun t ht s hs => List.mem_singleton.mp hs ▸ h.past t ht⟩
  past t ht := by
    rcases List.mem_append.mp ht with ht | ht
    · exact h.past t ht
    · exact Int.le_of_eq (congrArg Instant.nanos (List.mem_singleton.mp ht))
  granted := h.granted.append (List.Sublist.refl _)
  same hbounded start hstart := by
    rw [countAfter_concat, countAfter_concat, h.same hbounded start hstart]
  hour_le hset := by
    refine Budget.IsKept.concat (b := ⟨limit.perHour.toNat, Time.hour⟩) (h.hour_le hset) ?_
    have := hroom.1.resolve_left hset
    rwa [countWithin_eq_countAfter h.past] at this
  minute_le hset := by
    refine Budget.IsKept.concat (b := ⟨limit.perMinute.toNat + limit.burst.toNat, Time.minute⟩)
      (h.minute_le hset) ?_
    have := hroom.2.resolve_left hset
    rwa [countWithin_eq_countAfter h.past] at this

/-- The bounds leave room by what is remembered if they do by all grants. -/
theorem Represents.hasRoom_iff (h : Represents limit l grants now)
    (hbounded : limit.isUnlimited = false) :
    (hasHourRoom limit (Limiter.forget l.granted (now.sub Time.hour)) &&
      hasMinuteRoom limit (Limiter.forget l.granted (now.sub Time.hour)) now) = true ↔
    limit.HasRoom grants now := by
  have hsorted := h.sorted.sublist h.granted
  have hkept : (Limiter.forget l.granted (now.sub Time.hour)).Pairwise (· ≤ ·) :=
    hsorted.sublist (List.dropWhile_sublist _)
  -- The window of a minute begins behind that of an hour, where nothing has been forgotten.
  have hminute : now.sub Time.hour ≤ now.sub Time.minute := by
    simp only [Instant.le_def, Instant.nanos_sub]
    have : Time.minute ≤ Time.hour := by decide
    omega
  unfold hasHourRoom hasMinuteRoom RateLimit.HasRoom
  rw [length_forget hsorted, countAfter_eq hkept, h.forget.same hbounded _ hminute,
    h.same hbounded _ (Int.le_refl _), countWithin_eq_countAfter h.past,
    countWithin_eq_countAfter h.past]
  simp

/-- Without bounds there is always room. -/
theorem hasRoom_of_isUnlimited (h : limit.isUnlimited = true) (grants : List Instant)
    (now : Instant) : limit.HasRoom grants now := by
  obtain ⟨hminute, hhour⟩ := Bool.and_eq_true_iff.mp h
  exact ⟨.inl (beq_iff_eq.mp hhour), .inl (beq_iff_eq.mp hminute)⟩

/-- A request is granted if all grants before it leave room, and what is known then is known after
it. -/
theorem Represents.tryAcquire (h : Represents limit l grants now) :
    (l.tryAcquire now).2 = decide (limit.HasRoom grants now) ∧
      Represents limit (l.tryAcquire now).1
        (grants ++ if (l.tryAcquire now).2 then [now] else []) now := by
  obtain rfl := h.limit_eq
  unfold Limiter.tryAcquire
  cases hbounded : l.limit.isUnlimited with
  | true =>
    -- Without bounds the grant is not written down, so that only what is remembered falls behind.
    have hroom := hasRoom_of_isUnlimited hbounded grants now
    have hgrant := h.grant hroom
    refine ⟨(decide_eq_true hroom).symm, ?_⟩
    exact { hgrant with
      granted := h.granted.trans (List.sublist_append_left _ _)
      same := fun hfalse => absurd hbounded (by simp [hfalse]) }
  | false =>
    -- What is remembered is tidied up first, whether or not the request is granted.
    have hiff := h.hasRoom_iff hbounded
    dsimp only
    rw [if_neg Bool.false_ne_true]
    split
    · next hroom =>
      have hroom := hiff.mp hroom
      exact ⟨(decide_eq_true hroom).symm, h.forget.grant hroom⟩
    · next hfull =>
      refine ⟨(decide_eq_false fun hroom => hfull (hiff.mpr hroom)).symm, ?_⟩
      rw [if_neg Bool.false_ne_true, List.append_nil]
      exact h.forget

/-! ## Runs -/

/-- No request in the order of time is before the first one. -/
theorem exists_le_of_ordered {times : List Instant} (horder : times.Pairwise (· ≤ ·)) :
    ∃ start : Instant, ∀ t ∈ times, start ≤ t := by
  cases times with
  | nil => exact ⟨.epoch, fun t ht => by simp at ht⟩
  | cons t rest =>
    refine ⟨t, fun s hs => ?_⟩
    rcases List.mem_cons.mp hs with rfl | hs
    · exact Int.le_refl _
    · exact (List.pairwise_cons.mp horder).1 s hs

/-- Requests in the order of time leave a limiter that knows of their grants what counts. -/
theorem Represents.after (h : Represents limit l grants last) {times : List Instant}
    (horder : times.Pairwise (· ≤ ·)) (hlast : ∀ t ∈ times, last ≤ t) :
    ∃ stop, (stop = last ∨ stop ∈ times) ∧
      Represents limit (l.after times) (grants ++ l.grants times) stop := by
  induction times generalizing l grants last with
  | nil => exact ⟨last, .inl rfl, by simpa [Limiter.after, Limiter.grants] using h⟩
  | cons t rest ih =>
    obtain ⟨ht, hrest⟩ := List.pairwise_cons.mp horder
    have hstep := (h.mono (hlast t List.mem_cons_self)).tryAcquire.2
    -- The first request makes its own time the latest one, from which the others go on.
    obtain ⟨stop, hstop, hthen⟩ := ih hstep hrest ht
    refine ⟨stop, .inr (List.mem_cons.mpr hstop), ?_⟩
    rw [Limiter.after, Limiter.grants, ← List.append_assoc]
    exact hthen

/-- Limiters that know the same of all grants answer as if they remembered them. -/
theorem Represents.answers_eq (h : Represents limit l grants last) {times : List Instant}
    (horder : times.Pairwise (· ≤ ·)) (hlast : ∀ t ∈ times, last ≤ t) :
    l.answers times = limit.answers grants times := by
  induction times generalizing l grants last with
  | nil => rfl
  | cons t rest ih =>
    obtain ⟨ht, hrest⟩ := List.pairwise_cons.mp horder
    obtain ⟨hanswer, hstep⟩ := (h.mono (hlast t List.mem_cons_self)).tryAcquire
    have ih := ih hstep hrest ht
    rw [Limiter.answers, RateLimit.answers, ih, hanswer]
    by_cases hroom : limit.HasRoom grants t
    · simp [hroom]
    · simp [hroom]

/-- At each request a limiter knows what counts of the grants before it. -/
theorem represents_at (limit : RateLimit) {before after : List Instant} {now : Instant}
    (horder : (before ++ now :: after).Pairwise (· ≤ ·)) :
    Represents limit ((ofLimit limit).after before) ((ofLimit limit).grants before) now := by
  obtain ⟨start, hstart⟩ := exists_le_of_ordered horder
  obtain ⟨hbefore, -, hle⟩ := List.pairwise_append.mp horder
  obtain ⟨stop, hstop, hthen⟩ := (represents_ofLimit limit start).after hbefore fun t ht =>
    hstart t (List.mem_append_left _ ht)
  -- The requests before this one end at one of their times, or where they began.
  refine hthen.mono ?_
  rcases hstop with rfl | hstop
  · exact hstart now (List.mem_append_right _ List.mem_cons_self)
  · exact hle stop hstop now List.mem_cons_self

end Limiter

/-- What a rate limit does to requests. -/
structure RateLimit.IsExact (limit : RateLimit) (times : List Instant) : Prop where
  /-- The requests are answered as if every grant was remembered. -/
  answers_eq : (Limiter.ofLimit limit).answers times = limit.answers [] times
  hour_le : limit.perHour ≠ 0 → ∀ t : Instant,
    countWithin (t.sub Time.hour) t ((Limiter.ofLimit limit).grants times) ≤ limit.perHour.toNat
  minute_le : limit.perMinute ≠ 0 → ∀ t : Instant,
    countWithin (t.sub Time.minute) t ((Limiter.ofLimit limit).grants times) ≤
      limit.perMinute.toNat + limit.burst.toNat
  /-- A request is granted if the windows that end with it have room. -/
  granted_iff : ∀ before now after, times = before ++ now :: after →
    ((((Limiter.ofLimit limit).after before).tryAcquire now).2 = true ↔
      limit.HasRoom ((Limiter.ofLimit limit).grants before) now)
  /-- After a refusal the requests are answered as if the refused one had not been made. -/
  refused : ∀ before now after, times = before ++ now :: after →
    (((Limiter.ofLimit limit).after before).tryAcquire now).2 = false →
      (((Limiter.ofLimit limit).after before).tryAcquire now).1.answers after =
        ((Limiter.ofLimit limit).after before).answers after

namespace Limiter

/-- Requests in the order of time are granted exactly where fewer grants than the bounds allow lie
in the minute and in the hour that end with them; so no minute and no hour holds more, and a refused
request leaves no trace. -/
theorem isExact_of_ordered (limit : RateLimit) {times : List Instant}
    (horder : times.Pairwise (· ≤ ·)) : limit.IsExact times := by
  obtain ⟨start, hstart⟩ := exists_le_of_ordered horder
  have hnew := represents_ofLimit limit start
  obtain ⟨stop, -, hstop⟩ := hnew.after horder hstart
  refine ⟨hnew.answers_eq horder hstart, hstop.hour_le, hstop.minute_le, ?_, ?_⟩
  · rintro before now after rfl
    rw [(represents_at limit horder).tryAcquire.1, decide_eq_true_iff]
  · rintro before now after rfl hrefused
    obtain ⟨hnow, hafter⟩ := List.pairwise_cons.mp (List.pairwise_append.mp horder).2.1
    have hthen := represents_at limit horder
    -- What a refused request leaves knows of the same grants.
    have hkept := hthen.tryAcquire.2
    rw [hrefused, if_neg Bool.false_ne_true, List.append_nil] at hkept
    rw [hkept.answers_eq hafter hnow, hthen.answers_eq hafter hnow]

/-- A bound of three requests a minute, the burst included, and of four an hour. -/
def narrow : RateLimit := ⟨2, 4, 1⟩

/-- Four requests at once, one at the very end of their minute and another one right after it, and
one when the first three are an hour old. -/
def busyHour : List Instant :=
  List.replicate 4 .epoch ++
    [Instant.epoch.add Time.minute, Instant.epoch.add (Time.minute + 1),
      Instant.epoch.add Time.hour]

/-- The fourth one is refused for the minute, and the sixth one for the hour. -/
theorem busyHour_isExact :
    busyHour.Pairwise (· ≤ ·) ∧
    (ofLimit narrow).answers busyHour = [true, true, true, false, true, false, true] ∧
    narrow.IsExact busyHour :=
  ⟨by decide, by decide, isExact_of_ordered narrow (by decide)⟩

end Limiter

end Klaxon
