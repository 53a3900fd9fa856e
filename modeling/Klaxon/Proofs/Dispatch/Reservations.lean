import Mathlib.Data.List.Induction
import Klaxon.Proofs.Dispatch.Offers

/-!
# Reservations are tight

A recipient asks for one slot after the other. `SlotBook.reserve_tightly` says that a slot is
refused, or put off, only where a budget leaves no choice: where messages are dropped, a request is
refused exactly if one more slot now would be one too many for the hour or the day that ends now,
and where they are deferred, the slot is the first one that is not before now or before a slot given
earlier, and that can be added to these without overfilling any hour or any day.

A reservation looks for the first instant from now on at which all budgets have room
(`earliest_latestReopening?`). It does not look at the slots that were given for later instants, and
need not: before such a slot there is no room (`Reserved.tight`), because it was itself the first
one with room, and slots given since then only took more.
-/

namespace Klaxon

/-- From the slot at a place of a sorted list on, all slots lie behind what that one lies behind. -/
theorem le_countAfter_of_getElem {slots : List Instant} (hsorted : slots.Pairwise (· ≤ ·)) {i : Nat}
    {s start : Instant} (hs : slots[i]? = some s) (hstart : start < s) :
    slots.length ≤ countAfter start slots + i := by
  obtain ⟨hi, rfl⟩ := List.getElem?_eq_some_iff.mp hs
  have hdrop : slots.drop i = slots[i] :: slots.drop (i + 1) := List.drop_eq_getElem_cons hi
  -- The slot at the place is behind the start, and the others are no earlier than it.
  have hall : ∀ t ∈ slots.drop i, start < t := by
    have hle := hsorted.sublist (List.drop_sublist i slots)
    rw [hdrop] at hle ⊢
    intro t ht
    rcases List.mem_cons.mp ht with rfl | ht
    · exact hstart
    · exact Int.lt_of_lt_of_le hstart ((List.pairwise_cons.mp hle).1 t ht)
  have hcount : (slots.drop i).countP (fun t => decide (start < t)) = (slots.drop i).length :=
    List.countP_eq_length.mpr fun t ht => decide_eq_true (hall t ht)
  have hle : (slots.drop i).countP (fun t => decide (start < t)) ≤ countAfter start slots :=
    (List.drop_sublist i slots).countP_le
  rw [hcount, List.length_drop] at hle
  omega

/-- A window that ends with a slot behind all others holds that slot and what lies behind its
start. -/
theorem countWithin_concat_self {slots : List Instant} {s : Instant} {window : Int}
    (hwindow : 0 < window) (h : ∀ t ∈ slots, t ≤ s) :
    countWithin (s.sub window) s (slots ++ [s]) = countAfter (s.sub window) slots + 1 := by
  have hself : s.sub window < s := by
    simp only [Instant.lt_def, Instant.nanos_sub]
    omega
  have hslots := countWithin_eq_countAfter h (s.sub window)
  unfold countWithin at hslots ⊢
  rw [List.countP_append, hslots, List.countP_singleton]
  simp [hself, Instant.le_def]

namespace Budget

/-! ## The first instant with room -/

/-- A budget needs to reopen if it has no room now. -/
theorem reopensAt?_eq_none_iff {b : Budget} (hpos : 0 < b.limit) {slots : List Instant}
    {now : Instant} : b.reopensAt? slots now = none ↔ b.HasRoom slots now := by
  refine ⟨hasRoom_of_reopensAt?_eq_none hpos, fun hroom => ?_⟩
  unfold HasRoom countAfter at hroom
  rw [List.countP_eq_length_filter] at hroom
  exact if_neg (Nat.not_le.mpr hroom)

/-- Before a budget reopens it has no room. -/
theorem le_of_reopensAt?_eq_some {b : Budget} {slots : List Instant}
    (hsorted : slots.Pairwise (· ≤ ·)) {now t s : Instant} (h : b.reopensAt? slots now = some t)
    (hroom : b.HasRoom slots s) : t ≤ s := by
  unfold reopensAt? at h
  simp only at h
  split at h
  · next hfull =>
    obtain ⟨a, ha, rfl⟩ := Option.map_eq_some_iff.mp h
    refine Int.not_lt.mp fun hlt => ?_
    -- As many slots as the budget allows are no earlier than the one that leaves the window.
    have hstart : s.sub b.window < a := by
      rw [Instant.nanos_add] at hlt
      rw [Instant.lt_def, Instant.nanos_sub]
      omega
    have hmany := le_countAfter_of_getElem (hsorted.filter _) ha hstart
    have hsub : countAfter (s.sub b.window)
        (slots.filter fun t => decide (now.sub b.window < t)) ≤
        countAfter (s.sub b.window) slots := List.filter_sublist.countP_le
    unfold HasRoom at hroom
    omega
  · simp at h

/-- The first instant from now on at which all budgets have room for one more slot. -/
structure Earliest (budgets : List Budget) (slots : List Instant) (now slot : Instant) : Prop where
  now_le : now ≤ slot
  hasRoom : ∀ b ∈ budgets, b.HasRoom slots slot
  le : ∀ s, now ≤ s → (∀ b ∈ budgets, b.HasRoom slots s) → slot ≤ s

/-- The latest reopening, which may be now, is the first instant with room. -/
theorem earliest_latestReopening? {budgets : List Budget} (hpos : ∀ b ∈ budgets, 0 < b.limit)
    {slots : List Instant} (hsorted : slots.Pairwise (· ≤ ·)) (now : Instant) :
    Earliest budgets slots now ((latestReopening? budgets slots now).getD now) := by
  obtain ⟨hnow, hroom⟩ := hasRoom_latestReopening? hpos hsorted now
  refine ⟨hnow, hroom, fun s hs hrooms => ?_⟩
  rw [latestReopening?_eq_foldl]
  -- The induction is on the budgets that are left, behind the latest reopening of the others.
  suffices h : ∀ latest : Option Instant, latest.getD now ≤ s →
      (budgets.foldl (fun latest b => laterReopening latest (b.reopensAt? slots now))
        latest).getD now ≤ s from h none hs
  clear hnow hroom hpos
  induction budgets with
  | nil => exact fun _ hlatest => hlatest
  | cons b rest ih =>
    intro latest hlatest
    refine ih (fun c hc => hrooms c (List.mem_cons_of_mem _ hc)) _ ?_
    show (laterReopening latest (b.reopensAt? slots now)).getD now ≤ s
    cases hreopens : b.reopensAt? slots now with
    | none => cases latest <;> exact hlatest
    | some t =>
      have ht := le_of_reopensAt?_eq_some hsorted hreopens (hrooms b List.mem_cons_self)
      cases latest with
      | none => exact ht
      | some u => exact Instant.later_le hlatest ht

/-- No budget is to reopen if they all have room now. -/
theorem latestReopening?_eq_none_iff {budgets : List Budget} (hpos : ∀ b ∈ budgets, 0 < b.limit)
    {slots : List Instant} {now : Instant} :
    latestReopening? budgets slots now = none ↔ ∀ b ∈ budgets, b.HasRoom slots now := by
  have hnone : ∀ latest t : Option Instant,
      laterReopening latest t = none ↔ latest = none ∧ t = none := by
    intro latest t
    cases latest <;> cases t <;> simp [laterReopening]
  rw [latestReopening?_eq_foldl]
  -- As above, the induction is on the budgets that are left.
  suffices h : ∀ latest : Option Instant,
      budgets.foldl (fun latest b => laterReopening latest (b.reopensAt? slots now)) latest = none ↔
        latest = none ∧ ∀ b ∈ budgets, b.HasRoom slots now by simpa using h none
  induction budgets with
  | nil => simp
  | cons b rest ih =>
    intro latest
    rw [List.foldl_cons, ih (fun c hc => hpos c (List.mem_cons_of_mem _ hc)), hnone,
      reopensAt?_eq_none_iff (hpos b List.mem_cons_self), List.forall_mem_cons, and_assoc]

/-- The slot that is taken, by the latest reopening and the way that an overflow is handled. -/
theorem snd_takeSlot (budgets : List Budget) (overflow : Overflow) (slots : List Instant)
    (now : Instant) : (takeSlot budgets overflow slots now).2 =
      match latestReopening? budgets (forget slots now) now, overflow with
      | none, _ => some now
      | some _, .drop => none
      | some t, .defer => some t := by
  unfold takeSlot
  dsimp only
  cases latestReopening? budgets (forget slots now) now with
  | none => rfl
  | some t => cases overflow <;> rfl

/-- A slot that is taken is the first one with room. -/
theorem earliest_of_takeSlot {budgets : List Budget} (hpos : ∀ b ∈ budgets, 0 < b.limit)
    {overflow : Overflow} {slots : List Instant} (hsorted : slots.Pairwise (· ≤ ·))
    {now slot : Instant} (h : (takeSlot budgets overflow slots now).2 = some slot) :
    Earliest budgets (forget slots now) now slot := by
  have hearliest := earliest_latestReopening? hpos (sorted_forget hsorted now) now
  rw [snd_takeSlot] at h
  cases hlatest : latestReopening? budgets (forget slots now) now with
  | none =>
    rw [hlatest] at h hearliest
    obtain rfl := Option.some.inj h
    exact hearliest
  | some t =>
    rw [hlatest] at h hearliest
    cases overflow with
    | drop => cases h
    | defer =>
      obtain rfl := Option.some.inj h
      exact hearliest

/-- Where messages are dropped a slot is given now, or refused if a budget has no room. -/
theorem takeSlot_drop {budgets : List Budget} (hpos : ∀ b ∈ budgets, 0 < b.limit)
    (slots : List Instant) (now : Instant) :
    ((takeSlot budgets .drop slots now).2 = some now ∧
      ∀ b ∈ budgets, b.HasRoom (forget slots now) now) ∨
    ((takeSlot budgets .drop slots now).2 = none ∧
      ¬ ∀ b ∈ budgets, b.HasRoom (forget slots now) now) := by
  rw [snd_takeSlot, ← latestReopening?_eq_none_iff hpos]
  cases latestReopening? budgets (forget slots now) now with
  | none => exact .inl ⟨rfl, rfl⟩
  | some t => exact .inr ⟨rfl, by simp⟩

/-- Where messages are deferred a slot is always given. -/
theorem exists_takeSlot_defer (budgets : List Budget) (slots : List Instant) (now : Instant) :
    ∃ slot, (takeSlot budgets .defer slots now).2 = some slot := by
  rw [snd_takeSlot]
  cases latestReopening? budgets (forget slots now) now with
  | none => exact ⟨now, rfl⟩
  | some t => exact ⟨t, rfl⟩

/-! ## Reservations one after the other -/

/-- What is known of the slots that were given up to now and of those in the book, for a recipient
who asks in the order of time. -/
structure Reserved (budgets : List Budget) (now : Instant) (given book : List Instant) : Prop
    extends Booked budgets now given book where
  /-- Before a slot that was given there is no room, from now on. -/
  tight : ∀ s, now ≤ s → (∃ t ∈ given, s < t) → ∃ b ∈ budgets, ¬ b.HasRoom given s

/-- Nothing was given, and the book is empty. -/
theorem reserved_nil (budgets : List Budget) (now : Instant) : Reserved budgets now [] [] :=
  ⟨booked_nil budgets now, fun _ _ ⟨_, ht, _⟩ => by simp at ht⟩

/-- Time goes on. -/
theorem Reserved.mono {budgets : List Budget} {now now' : Instant} {given book : List Instant}
    (h : Reserved budgets now given book) (hnow : now ≤ now') :
    Reserved budgets now' given book :=
  ⟨h.toBooked.mono hnow, fun s hs => h.tight s (Int.le_trans hnow hs)⟩

/-- The book tells whether there is room behind the slots that were given. -/
theorem Booked.hasRoom_iff {budgets : List Budget} {now : Instant} {given book : List Instant}
    (h : Booked budgets now given book) {b : Budget} (hwindow : b.window ≤ Time.day) {s : Instant}
    (hs : now ≤ s) : b.HasRoom book s ↔ b.HasRoom given s := by
  have hstart : now.sub Time.day ≤ s.sub b.window := by
    simp only [Instant.le_def, Instant.nanos_sub] at *
    omega
  unfold HasRoom
  rw [h.same _ hstart]

/-- The first slot with room is the same behind slots that leave the same room. -/
theorem Earliest.congr {budgets : List Budget} {slots slots' : List Instant} {now slot : Instant}
    (h : Earliest budgets slots now slot)
    (hsame : ∀ b ∈ budgets, ∀ s, now ≤ s → (b.HasRoom slots s ↔ b.HasRoom slots' s)) :
    Earliest budgets slots' now slot where
  now_le := h.now_le
  hasRoom b hb := (hsame b hb slot h.now_le).mp (h.hasRoom b hb)
  le s hs hroom := h.le s hs fun b hb => (hsame b hb s hs).mpr (hroom b hb)

/-- Slots that leave room together leave it without some of them. -/
theorem HasRoom.of_append {b : Budget} {slots more : List Instant} {s : Instant}
    (h : b.HasRoom (slots ++ more) s) : b.HasRoom slots s := by
  unfold HasRoom countAfter at h ⊢
  rw [List.countP_append] at h
  omega

/-- The first slot with room is no earlier than those that were given. -/
theorem Reserved.le_earliest {budgets : List Budget} {now : Instant} {given book : List Instant}
    (h : Reserved budgets now given book) {slot : Instant}
    (hslot : Earliest budgets given now slot) : ∀ t ∈ given, t ≤ slot := by
  intro t ht
  refine Int.not_lt.mp fun hlt => ?_
  obtain ⟨b, hb, hfull⟩ := h.tight slot hslot.now_le ⟨t, ht, hlt⟩
  exact hfull (hslot.hasRoom b hb)

/-- A reservation keeps what is known of the slots. -/
theorem Reserved.takeSlot {budgets : List Budget} (hpos : ∀ b ∈ budgets, 0 < b.limit)
    (hwindow : ∀ b ∈ budgets, b.window ≤ Time.day) (overflow : Overflow) {now : Instant}
    {given book : List Instant} (h : Reserved budgets now given book) :
    Reserved budgets now (given ++ (Budget.takeSlot budgets overflow book now).2.toList)
      (Budget.takeSlot budgets overflow book now).1 := by
  refine ⟨h.toBooked.takeSlot hpos hwindow overflow, fun s hs hlater => ?_⟩
  obtain ⟨t, ht, hst⟩ := hlater
  -- A budget without room has none when one more slot is given.
  suffices hfull : ∃ b ∈ budgets, ¬ b.HasRoom given s by
    obtain ⟨b, hb, hroom⟩ := hfull
    exact ⟨b, hb, fun hmore => hroom hmore.of_append⟩
  rcases List.mem_append.mp ht with ht | ht
  · exact h.tight s hs ⟨t, ht, hst⟩
  · -- Before the new slot there is no room, as it is the first one with room.
    have hslot := (earliest_of_takeSlot hpos h.sorted (Option.mem_toList.mp ht)).congr
      fun b hb _ => h.toBooked.forget.hasRoom_iff (hwindow b hb)
    by_contra hnone
    simp only [not_exists, not_and, not_not] at hnone
    exact Int.not_le.mpr hst (hslot.le s hs hnone)

/-- A slot behind all others can be added to a budget that is kept where there is room for it. -/
theorem IsKept.concat_iff {b : Budget} (hwindow : 0 < b.window) {slots : List Instant}
    (h : b.IsKept slots) {slot : Instant} (hlast : ∀ t ∈ slots, t ≤ slot) :
    b.IsKept (slots ++ [slot]) ↔ b.HasRoom slots slot := by
  refine ⟨fun hkept => ?_, h.concat⟩
  have hle := hkept slot
  rw [countWithin_concat_self hwindow hlast] at hle
  exact hle

/-- The budgets of a recipient are those of the limits that are set. -/
theorem mem_ofRecipient_iff {r : Recipient} {b : Budget} :
    b ∈ ofRecipient r ↔
      (∃ n, r.maxPerHour = some n ∧ 0 < n ∧ b = ⟨n.toNat, Time.hour⟩) ∨
      (∃ n, r.maxPerDay = some n ∧ 0 < n ∧ b = ⟨n.toNat, Time.day⟩) := by
  have hlimit : ∀ (limit : Option UInt32) (window : Int), b ∈ (ofLimit? limit window).toList ↔
      ∃ n, limit = some n ∧ 0 < n ∧ b = ⟨n.toNat, window⟩ := by
    intro limit window
    cases limit with
    | none => simp [ofLimit?]
    | some n =>
      by_cases hn : 0 < n
      · simp [ofLimit?_of_pos hn, hn]
      · obtain rfl : n = 0 := by simpa using hn
        simp [ofLimit?]
  unfold ofRecipient
  rw [List.mem_append, hlimit, hlimit]

end Budget

/-! ## Runs of reservations -/

namespace SlotBook

/-- The book after requests for slots, each of a recipient at a time. -/
def after (overflow : Overflow) (b : SlotBook) : List (Recipient × Instant) → SlotBook
  | [] => b
  | (r, now) :: rest => after overflow (b.reserve r overflow now).1 rest

/-- The slots that a recipient is given for requests, in the order of these. -/
def slotsGiven (overflow : Overflow) (id : String) (b : SlotBook) :
    List (Recipient × Instant) → List Instant
  | [] => []
  | (r, now) :: rest =>
    (if r.id = id then (b.reserve r overflow now).2.toList else []) ++
      slotsGiven overflow id (b.reserve r overflow now).1 rest

/-- The last request is answered on the book behind the others. -/
theorem after_concat (overflow : Overflow) (b : SlotBook) (requests : List (Recipient × Instant))
    (r : Recipient) (now : Instant) : after overflow b (requests ++ [(r, now)]) =
      ((after overflow b requests).reserve r overflow now).1 := by
  induction requests generalizing b with
  | nil => rfl
  | cons q rest ih => exact ih _

/-- The slot of the last request comes behind those of the others. -/
theorem slotsGiven_concat (overflow : Overflow) (id : String) (b : SlotBook)
    (requests : List (Recipient × Instant)) (r : Recipient) (now : Instant) :
    slotsGiven overflow id b (requests ++ [(r, now)]) = slotsGiven overflow id b requests ++
      if r.id = id then ((after overflow b requests).reserve r overflow now).2.toList else [] := by
  induction requests generalizing b with
  | nil => simp [slotsGiven, after]
  | cons q rest ih =>
    obtain ⟨r', now'⟩ := q
    simp only [List.cons_append, slotsGiven, after, ih, List.append_assoc]

/-- An empty book is in order. -/
theorem isSorted_nil : IsSorted [] := fun _ => .nil

/-- Requests keep the slots of all recipients in their order. -/
theorem isSorted_after (overflow : Overflow) {b : SlotBook} (h : b.IsSorted)
    (requests : List (Recipient × Instant)) : (after overflow b requests).IsSorted := by
  induction requests generalizing b with
  | nil => exact h
  | cons q rest ih => exact ih (h.reserve q.1 overflow q.2)

/-- Recipients with the same limits have the same budgets. -/
theorem ofRecipient_congr {r r' : Recipient}
    (h : r'.maxPerHour = r.maxPerHour ∧ r'.maxPerDay = r.maxPerDay) :
    Budget.ofRecipient r' = Budget.ofRecipient r := by
  unfold Budget.ofRecipient
  rw [h.1, h.2]

/-- What is known of the slots of a recipient after requests, at any time behind its own. -/
theorem reserved_after (overflow : Overflow) {id : String} {maxPerHour maxPerDay : Option UInt32}
    (hbudgets : Budget.ofLimits maxPerHour maxPerDay ≠ [])
    {requests : List (Recipient × Instant)}
    (hlimits : ∀ q ∈ requests, q.1.id = id → q.1.maxPerHour = maxPerHour ∧
      q.1.maxPerDay = maxPerDay)
    (horder : requests.Pairwise fun p q => p.1.id = id → q.1.id = id → p.2 ≤ q.2)
    {now : Instant} (hnow : ∀ q ∈ requests, q.1.id = id → q.2 ≤ now) :
    Budget.Reserved (Budget.ofLimits maxPerHour maxPerDay) now
      (slotsGiven overflow id [] requests) ((after overflow [] requests).get id) := by
  -- The induction is from the last request on, so that the ones before it are in the past.
  induction requests using List.reverseRecOn generalizing now with
  | nil => exact Budget.reserved_nil _ now
  | append_singleton requests q ih =>
    obtain ⟨r, asked⟩ := q
    obtain ⟨hbefore, -, hlast⟩ := List.pairwise_append.mp horder
    have ih := @ih (fun q hq => hlimits q (List.mem_append_left _ hq)) hbefore
    have hreserve := reserve_spec (after overflow [] requests) r overflow asked
    rw [slotsGiven_concat, after_concat]
    by_cases hid : r.id = id
    · subst hid
      have hasked : asked ≤ now := hnow (r, asked) (List.mem_append_right _ List.mem_cons_self) rfl
      obtain ⟨hhour, hday⟩ :=
        hlimits (r, asked) (List.mem_append_right _ List.mem_cons_self) rfl
      have hof : Budget.ofRecipient r = Budget.ofLimits maxPerHour maxPerDay := by
        rw [← hhour, ← hday]
        rfl
      rw [hof] at hreserve
      obtain ⟨-, hreserve⟩ := hreserve.resolve_left fun h => hbudgets h.1
      have hthen := @ih asked fun q hq hq' =>
        hlast q hq (r, asked) List.mem_cons_self hq' rfl
      rw [hreserve, if_pos rfl, get_set_self]
      exact (hthen.takeSlot (fun b hb => (Budget.bounds_of_mem_ofLimits hb).1)
        (fun b hb => (Budget.bounds_of_mem_ofLimits hb).2) overflow).mono hasked
    · -- Somebody else asked, so that the slots and the book of this recipient stay.
      have hget : ((after overflow [] requests).reserve r overflow asked).1.get id =
          (after overflow [] requests).get id := by
        rcases hreserve with ⟨-, hreserve⟩ | ⟨-, hreserve⟩
        · rw [hreserve]
        · rw [hreserve, get_set_of_ne _ (Ne.symm hid)]
      rw [if_neg hid, List.append_nil, hget]
      exact ih fun q hq => hnow q (List.mem_append_left _ hq)

/-- A slot that is not put off is given for now. -/
theorem eq_now_of_reserve {b : SlotBook} {r : Recipient} {overflow : Overflow} {now slot : Instant}
    (hprompt : overflow = .drop ∨ Budget.ofRecipient r = [])
    (h : (b.reserve r overflow now).2 = some slot) : slot = now := by
  rcases b.reserve_spec r overflow now with ⟨-, hreserve⟩ | ⟨hsome, hreserve⟩
  · rw [hreserve] at h
    exact (Option.some.inj h).symm
  · obtain rfl := hprompt.resolve_right hsome
    rw [hreserve] at h
    rcases Budget.takeSlot_drop (fun _ => Budget.limit_pos_of_mem_ofRecipient (r := r))
      (b.get r.id) now with ⟨htake, -⟩ | ⟨htake, -⟩
    · rw [htake] at h
      exact (Option.some.inj h).symm
    · rw [htake] at h
      cases h

/-- Where no slot is put off, all that were given are in the past. -/
theorem le_of_mem_slotsGiven {overflow : Overflow} {id : String} (b : SlotBook)
    {requests : List (Recipient × Instant)}
    (hprompt : ∀ q ∈ requests, q.1.id = id → overflow = .drop ∨ Budget.ofRecipient q.1 = [])
    {now : Instant} (hnow : ∀ q ∈ requests, q.1.id = id → q.2 ≤ now) :
    ∀ t ∈ slotsGiven overflow id b requests, t ≤ now := by
  induction requests generalizing b with
  | nil => exact fun t ht => by simp [slotsGiven] at ht
  | cons q rest ih =>
    obtain ⟨r, asked⟩ := q
    intro t ht
    rw [slotsGiven] at ht
    rcases List.mem_append.mp ht with ht | ht
    · -- The first request gave the slot at its own time, or one behind it did.
      split at ht
      · next hid =>
        obtain rfl := eq_now_of_reserve (hprompt (r, asked) List.mem_cons_self hid)
          (Option.mem_toList.mp ht)
        exact hnow (r, t) List.mem_cons_self hid
      · simp at ht
    · exact ih _ (fun q hq => hprompt q (List.mem_cons_of_mem _ hq))
        (fun q hq => hnow q (List.mem_cons_of_mem _ hq)) t ht

end SlotBook

namespace Recipient

/-- One more slot now is one too many for the hour or the day that ends now. -/
def IsFull (r : Recipient) (given : List Instant) (now : Instant) : Prop :=
  (∃ n, r.maxPerHour = some n ∧ 0 < n ∧
    n.toNat < countWithin (now.sub Time.hour) now (given ++ [now])) ∨
  (∃ n, r.maxPerDay = some n ∧ 0 < n ∧
    n.toNat < countWithin (now.sub Time.day) now (given ++ [now]))

/-- A slot that can follow those that were given: it is not before now or before one of them, and
with it no hour and no day holds too many. -/
structure CanTake (r : Recipient) (given : List Instant) (now slot : Instant) : Prop where
  now_le : now ≤ slot
  given_le : ∀ t ∈ given, t ≤ slot
  hour : ∀ n, r.maxPerHour = some n → 0 < n →
    ∀ t : Instant, countWithin (t.sub Time.hour) t (given ++ [slot]) ≤ n.toNat
  day : ∀ n, r.maxPerDay = some n → 0 < n →
    ∀ t : Instant, countWithin (t.sub Time.day) t (given ++ [slot]) ≤ n.toNat

/-- The budgets of a recipient are for an hour and for a day. -/
theorem window_pos_of_mem_ofRecipient {r : Recipient} {b : Budget}
    (hb : b ∈ Budget.ofRecipient r) : 0 < b.window := by
  rcases Budget.mem_ofRecipient_iff.mp hb with ⟨n, -, -, rfl⟩ | ⟨n, -, -, rfl⟩
  · show 0 < Time.hour
    decide
  · show 0 < Time.day
    decide

/-- A recipient is full if one of its budgets has no room. -/
theorem isFull_iff {r : Recipient} {given : List Instant} {now : Instant}
    (hgiven : ∀ t ∈ given, t ≤ now) :
    r.IsFull given now ↔ ¬ ∀ b ∈ Budget.ofRecipient r, b.HasRoom given now := by
  -- One slot more is too many for a window exactly if its budget has no room.
  have hlimit : ∀ (n : UInt32) (window : Int), 0 < window →
      (n.toNat < countWithin (now.sub window) now (given ++ [now]) ↔
        ¬ (⟨n.toNat, window⟩ : Budget).HasRoom given now) := by
    intro n window hwindow
    rw [countWithin_concat_self hwindow hgiven, Nat.lt_succ_iff]
    exact Nat.not_lt.symm
  constructor
  · rintro (⟨n, hn, hpos, hfull⟩ | ⟨n, hn, hpos, hfull⟩) hall
    · exact (hlimit n _ (by decide)).mp hfull
        (hall _ (Budget.mem_ofRecipient_iff.mpr (.inl ⟨n, hn, hpos, rfl⟩)))
    · exact (hlimit n _ (by decide)).mp hfull
        (hall _ (Budget.mem_ofRecipient_iff.mpr (.inr ⟨n, hn, hpos, rfl⟩)))
  · intro hnot
    obtain ⟨b, hb, hfull⟩ : ∃ b ∈ Budget.ofRecipient r, ¬ b.HasRoom given now := by
      by_contra hnone
      simp only [not_exists, not_and, not_not] at hnone
      exact hnot hnone
    rcases Budget.mem_ofRecipient_iff.mp hb with ⟨n, hn, hpos, rfl⟩ | ⟨n, hn, hpos, rfl⟩
    · exact .inl ⟨n, hn, hpos, (hlimit n _ (by decide)).mpr hfull⟩
    · exact .inr ⟨n, hn, hpos, (hlimit n _ (by decide)).mpr hfull⟩

/-- A slot can be taken if all budgets of the recipient have room for it. -/
theorem canTake_iff {r : Recipient} {given : List Instant}
    (hkept : ∀ b ∈ Budget.ofRecipient r, b.IsKept given) {now slot : Instant} :
    r.CanTake given now slot ↔ now ≤ slot ∧ (∀ t ∈ given, t ≤ slot) ∧
      ∀ b ∈ Budget.ofRecipient r, b.HasRoom given slot := by
  constructor
  · intro h
    refine ⟨h.now_le, h.given_le, fun b hb => ?_⟩
    refine ((hkept b hb).concat_iff (window_pos_of_mem_ofRecipient hb) h.given_le).mp ?_
    rcases Budget.mem_ofRecipient_iff.mp hb with ⟨n, hn, hpos, rfl⟩ | ⟨n, hn, hpos, rfl⟩
    · exact h.hour n hn hpos
    · exact h.day n hn hpos
  · rintro ⟨hnow, hlast, hroom⟩
    refine ⟨hnow, hlast, fun n hn hpos => ?_, fun n hn hpos => ?_⟩
    · have hb : ⟨n.toNat, Time.hour⟩ ∈ Budget.ofRecipient r :=
        Budget.mem_ofRecipient_iff.mpr (.inl ⟨n, hn, hpos, rfl⟩)
      exact (hkept _ hb).concat (hroom _ hb)
    · have hb : ⟨n.toNat, Time.day⟩ ∈ Budget.ofRecipient r :=
        Budget.mem_ofRecipient_iff.mpr (.inr ⟨n, hn, hpos, rfl⟩)
      exact (hkept _ hb).concat (hroom _ hb)

end Recipient

namespace SlotBook

/-- A slot is refused or put off no more than the limits of the recipient ask for. -/
structure ReservesTightly (requests : List (Recipient × Instant)) (r : Recipient)
    (now : Instant) : Prop where
  /-- Where messages are dropped, a slot is given now or refused. -/
  prompt : ((after .drop [] requests).reserve r .drop now).2 = none ∨
    ((after .drop [] requests).reserve r .drop now).2 = some now
  /-- It is refused if one more slot now is one too many. -/
  refused_iff : ((after .drop [] requests).reserve r .drop now).2 = none ↔
    r.IsFull (slotsGiven .drop r.id [] requests) now
  /-- Where messages are deferred, the slot is the first one that can be taken. -/
  deferred : ∃ slot, ((after .defer [] requests).reserve r .defer now).2 = some slot ∧
    r.CanTake (slotsGiven .defer r.id [] requests) now slot ∧
    ∀ s, r.CanTake (slotsGiven .defer r.id [] requests) now s → slot ≤ s

/-- Where messages are dropped, a request is refused exactly if a budget has no room now. -/
theorem reserve_drop (b : SlotBook) (r : Recipient) (now : Instant) :
    ((b.reserve r .drop now).2 = some now ∧
      ∀ c ∈ Budget.ofRecipient r, c.HasRoom (Budget.forget (b.get r.id) now) now) ∨
    ((b.reserve r .drop now).2 = none ∧
      ¬ ∀ c ∈ Budget.ofRecipient r, c.HasRoom (Budget.forget (b.get r.id) now) now) := by
  rcases b.reserve_spec r .drop now with ⟨hnone, hreserve⟩ | ⟨-, hreserve⟩
  · rw [hreserve, hnone]
    exact .inl ⟨rfl, fun c hc => by simp at hc⟩
  · rw [hreserve]
    exact Budget.takeSlot_drop (fun _ => Budget.limit_pos_of_mem_ofRecipient) _ now

/-- Where messages are deferred, a slot is given, the first one with room. -/
theorem reserve_defer {b : SlotBook} {r : Recipient} (now : Instant)
    (hsorted : (b.get r.id).Pairwise (· ≤ ·)) :
    ∃ slot, (b.reserve r .defer now).2 = some slot ∧
      Budget.Earliest (Budget.ofRecipient r) (Budget.forget (b.get r.id) now) now slot := by
  rcases b.reserve_spec r .defer now with ⟨hnone, hreserve⟩ | ⟨-, hreserve⟩
  · rw [hreserve, hnone]
    exact ⟨now, rfl, Int.le_refl _, fun c hc => by simp at hc, fun s hs _ => hs⟩
  · rw [hreserve]
    obtain ⟨slot, hslot⟩ :=
      Budget.exists_takeSlot_defer (Budget.ofRecipient r) (b.get r.id) now
    exact ⟨slot, hslot, Budget.earliest_of_takeSlot
      (fun _ => Budget.limit_pos_of_mem_ofRecipient) hsorted hslot⟩

variable {requests : List (Recipient × Instant)} {r : Recipient} {now : Instant}

/-- After requests in the order of time the budgets of a recipient are kept, the book leaves the
same room as the slots that were given, and the first slot with room is not before any of them. -/
theorem room_after (overflow : Overflow)
    (hlimits : ∀ q ∈ requests, q.1.id = r.id → q.1.maxPerHour = r.maxPerHour ∧
      q.1.maxPerDay = r.maxPerDay)
    (horder : (requests ++ [(r, now)]).Pairwise fun p q => p.1.id = r.id → q.1.id = r.id →
      p.2 ≤ q.2) :
    (∀ b ∈ Budget.ofRecipient r, b.IsKept (slotsGiven overflow r.id [] requests)) ∧
    (∀ b ∈ Budget.ofRecipient r, ∀ s, now ≤ s →
      (b.HasRoom (Budget.forget ((after overflow [] requests).get r.id) now) s ↔
        b.HasRoom (slotsGiven overflow r.id [] requests) s)) ∧
    ∀ slot, Budget.Earliest (Budget.ofRecipient r) (slotsGiven overflow r.id [] requests) now slot →
      ∀ t ∈ slotsGiven overflow r.id [] requests, t ≤ slot := by
  obtain ⟨hbefore, -, hlast⟩ := List.pairwise_append.mp horder
  have hnow : ∀ q ∈ requests, q.1.id = r.id → q.2 ≤ now := fun q hq hid =>
    hlast q hq (r, now) List.mem_cons_self hid rfl
  by_cases hnone : Budget.ofRecipient r = []
  · -- Without budgets every slot was given for the time of its request.
    have hgiven : ∀ t ∈ slotsGiven overflow r.id [] requests, t ≤ now :=
      le_of_mem_slotsGiven [] (fun q hq hid =>
        .inr ((ofRecipient_congr (hlimits q hq hid)).trans hnone)) hnow
    rw [hnone]
    exact ⟨fun b hb => by simp at hb, fun b hb => by simp at hb,
      fun slot hslot t ht => Int.le_trans (hgiven t ht) hslot.now_le⟩
  · have hreserved := reserved_after overflow hnone hlimits hbefore hnow
    exact ⟨hreserved.kept, fun b hb s => hreserved.forget.hasRoom_iff
      (Budget.bounds_of_mem_ofLimits hb).2, fun slot => hreserved.le_earliest⟩

/-- However recipients ask for slots one after the other, a recipient whose limits stay is refused a
slot, or given one for later, no more than these limits ask for. -/
theorem reserve_tightly
    (hlimits : ∀ q ∈ requests, q.1.id = r.id → q.1.maxPerHour = r.maxPerHour ∧
      q.1.maxPerDay = r.maxPerDay)
    (horder : (requests ++ [(r, now)]).Pairwise fun p q => p.1.id = r.id → q.1.id = r.id →
      p.2 ≤ q.2) :
    ReservesTightly requests r now := by
  refine ⟨?_, ?_, ?_⟩
  · rcases reserve_drop (after .drop [] requests) r now with ⟨hslot, -⟩ | ⟨hslot, -⟩
    · exact .inr hslot
    · exact .inl hslot
  · obtain ⟨-, hroom, -⟩ := room_after .drop hlimits horder
    have hgiven : ∀ t ∈ slotsGiven .drop r.id [] requests, t ≤ now :=
      le_of_mem_slotsGiven [] (fun _ _ _ => .inl rfl) fun q hq hid =>
        (List.pairwise_append.mp horder).2.2 q hq (r, now) List.mem_cons_self hid rfl
    -- The book forgets old slots, but what counts now is in it still.
    have hall : (∀ b ∈ Budget.ofRecipient r,
        b.HasRoom (Budget.forget ((after .drop [] requests).get r.id) now) now) ↔
        ∀ b ∈ Budget.ofRecipient r, b.HasRoom (slotsGiven .drop r.id [] requests) now :=
      forall₂_congr fun b hb => hroom b hb now (Int.le_refl _)
    rw [Recipient.isFull_iff hgiven, ← hall]
    rcases reserve_drop (after .drop [] requests) r now with ⟨hslot, hroom⟩ | ⟨hslot, hfull⟩
    · rw [hslot]
      exact ⟨fun h => (nomatch h), fun hfull => absurd hroom hfull⟩
    · exact ⟨fun _ => hfull, fun _ => hslot⟩
  · obtain ⟨hkept, hroom, hlast⟩ := room_after .defer hlimits horder
    obtain ⟨slot, hslot, hearliest⟩ := reserve_defer now
      (isSorted_after .defer isSorted_nil requests r.id)
    have hearliest := hearliest.congr hroom
    refine ⟨slot, hslot, (Recipient.canTake_iff hkept).mpr ⟨hearliest.now_le,
      hlast slot hearliest, hearliest.hasRoom⟩, fun s hs => ?_⟩
    obtain ⟨hnow, -, hrooms⟩ := (Recipient.canTake_iff hkept).mp hs
    exact hearliest.le s hnow hrooms

/-- A recipient who allows two alert messages an hour and three a day. -/
def guard : Recipient :=
  { id := "guard", name := "Guard", locale := none, contacts := [], preferences := []
    severityThresholds := [], quietHours := none, maxPerHour := some 2, maxPerDay := some 3 }

/-- Three requests of the guard within a minute, with one of somebody else between them. -/
def alarms : List (Recipient × Instant) :=
  [(guard, .epoch), (guard, .epoch), ({ guard with id := "clerk" }, Instant.epoch.add Time.day),
    (guard, Instant.epoch.add Time.second)]

/-- The third slot is put off for an hour, and the fourth one for a day and not just for the hour
that is full as well; where messages are dropped, the fourth one is refused like the third. -/
theorem alarms_reserveTightly :
    slotsGiven .defer "guard" [] alarms = [.epoch, .epoch, Instant.epoch.add Time.hour] ∧
    ((after .defer [] alarms).reserve guard .defer (Instant.epoch.add Time.minute)).2 =
      some (Instant.epoch.add Time.day) ∧
    ((after .drop [] alarms).reserve guard .drop (Instant.epoch.add Time.minute)).2 = none ∧
    ReservesTightly alarms guard (Instant.epoch.add Time.minute) :=
  ⟨by decide +kernel, by decide +kernel, by decide +kernel,
    reserve_tightly (by decide +kernel) (by decide +kernel)⟩

end SlotBook

end Klaxon
