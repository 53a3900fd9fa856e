import Klaxon.Proofs.Dispatch.AttemptLog
import Klaxon.Proofs.Dispatch.Notices
import Klaxon.Proofs.Dispatch.Windows

/-!
# Runs keep the budgets of recipients

The slots of a recipient are the times that its notices were scheduled for when they were made.
`run_withinBudgets` says that no hour and no day holds more of them than the recipient allows. The
book of the engine holds the slots of a day (`Booked`): it changes where an alert is offered to the
recipient (`offer_slots`), and stays in all other turns.
-/

namespace Klaxon

namespace SlotBook

/-- The slots of the others stay. -/
theorem get_set_of_ne (b : SlotBook) {id other : String} (h : other ≠ id)
    (slots : List Instant) : (b.set id slots).get other = b.get other := by
  have hne : (other == id) = false := beq_eq_false_iff_ne.mpr h
  unfold get
  induction b with
  | nil => simp [set, List.lookup_cons, hne]
  | cons entry rest ih =>
    obtain ⟨k, old⟩ := entry
    rw [set]
    split
    · next hk => simp [List.lookup_cons, hk, hne]
    · -- An entry before the place of `id` is kept; only if it is that of `other` does it answer.
      cases hk : other == k with
      | true => simp [List.lookup_cons, hk]
      | false => simpa [List.lookup_cons, hk] using ih

end SlotBook

namespace Budget

/-- The budgets of two limits. -/
def ofLimits (maxPerHour maxPerDay : Option UInt32) : List Budget :=
  (ofLimit? maxPerHour Time.hour).toList ++ (ofLimit? maxPerDay Time.day).toList

/-- A budget has a limit, and a window of at most a day. -/
theorem bounds_of_mem_ofLimits {maxPerHour maxPerDay : Option UInt32} {b : Budget}
    (hb : b ∈ ofLimits maxPerHour maxPerDay) : 0 < b.limit ∧ b.window ≤ Time.day := by
  have hlimit : ∀ {limit : Option UInt32} {window : Int}, window ≤ Time.day →
      b ∈ (ofLimit? limit window).toList → 0 < b.limit ∧ b.window ≤ Time.day := by
    intro limit window hwindow hb
    unfold ofLimit? at hb
    split at hb
    · split at hb
      · simp at hb
      · next n hn =>
        obtain rfl : b = ⟨n.toNat, window⟩ := by simpa using hb
        exact ⟨Nat.pos_of_ne_zero fun h0 => hn (UInt32.toNat_inj.mp h0), hwindow⟩
    · simp at hb
  rcases List.mem_append.mp hb with hb | hb
  · exact hlimit (by decide) hb
  · exact hlimit (Int.le_refl _) hb

/-- A limit that is set has its budget. -/
theorem ofLimit?_of_pos {n : UInt32} (hn : 0 < n) (window : Int) :
    ofLimit? (some n) window = some ⟨n.toNat, window⟩ := by
  have hne : n ≠ 0 := fun h0 => absurd hn (by simp [h0])
  simp [ofLimit?, hne]

end Budget

/-- When alerts are offered in turns, and to whom. -/
def Turn.offers (turns : List (Instant × Turn)) : List (Instant × Recipient) :=
  turns.filterMap fun t => t.2.recipient?.map fun r => (t.1, r)

/-- The slots of a recipient: the times that its notices are scheduled for as they are made. -/
def Notice.slotsOf (id : String) (notices : List Notice) : List Instant :=
  (notices.filter fun n => n.recipient.id == id).map fun n => n.message.scheduledAt

namespace Engine

/-- A message is scheduled for the time of its draft, whether it is held back or goes to a lane. -/
theorem scheduledAt_accept (e : Engine) (d : Draft) (now : Instant) :
    (e.accept d now).2.scheduledAt = d.scheduledAt := by
  unfold accept
  split <;> rfl

/-- Taking up a draft leaves the book of slots as it is. -/
theorem slots_accept (e : Engine) (d : Draft) (now : Instant) :
    (e.accept d now).1.slots = e.slots :=
  (e.leaves_accept d now (t := .holdBack) rfl).slots rfl

/-- Where an alert is offered, a slot is taken and given to a notice, unless there is no way to the
recipient. -/
theorem offer_slots (e : Engine) (now : Instant) (alert : Alert) (recipient : Recipient)
    (priority : Priority) (channelType : ChannelType) :
    ((e.turn now (.offer alert recipient priority channelType)).slots = e.slots ∧
      e.noticesOf now (.offer alert recipient priority channelType) = []) ∨
    ((e.turn now (.offer alert recipient priority channelType)).slots =
        (e.slots.reserve recipient e.policy.recipientOverflow now).1 ∧
      ∃ messages : List Message,
        e.noticesOf now (.offer alert recipient priority channelType) =
          messages.map (fun m => ⟨alert, recipient, m⟩) ∧
        messages.map Message.scheduledAt =
          (e.slots.reserve recipient e.policy.recipientOverflow now).2.toList) := by
  simp only [turn, noticesOf, notifyOver]
  split
  · exact .inl ⟨rfl, rfl⟩
  · split
    · next slots hreserve =>
      rw [hreserve]
      exact .inr ⟨rfl, [], rfl, rfl⟩
    · next slots scheduledAt hreserve =>
      rw [hreserve]
      refine .inr ⟨slots_accept _ _ now, _, rfl, ?_⟩
      simp only [List.map_cons, List.map_nil, scheduledAt_accept, Option.toList_some]

/-- Slots and book of a recipient, where an alert is offered. -/
theorem booked_offer {maxPerHour maxPerDay : Option UInt32}
    (hbudgets : Budget.ofLimits maxPerHour maxPerDay ≠ []) {e : Engine} {id : String}
    {now : Instant} {given : List Instant}
    (h : Budget.Booked (Budget.ofLimits maxPerHour maxPerDay) now given (e.slots.get id))
    (alert : Alert) {recipient : Recipient} (priority : Priority) (channelType : ChannelType)
    (hlimits : recipient.id = id →
      recipient.maxPerHour = maxPerHour ∧ recipient.maxPerDay = maxPerDay) :
    Budget.Booked (Budget.ofLimits maxPerHour maxPerDay) now
      (given ++ Notice.slotsOf id
        (e.noticesOf now (.offer alert recipient priority channelType)))
      ((e.turn now (.offer alert recipient priority channelType)).slots.get id) := by
  rcases e.offer_slots now alert recipient priority channelType with
    ⟨hslots, hnotices⟩ | ⟨hslots, messages, hnotices, hscheduled⟩
  · rw [hslots, hnotices]
    simpa [Notice.slotsOf] using h
  · rw [hslots, hnotices]
    -- The slots of another recipient stay; those of this one get the slot that is taken.
    by_cases hid : recipient.id = id
    · have hgiven : Notice.slotsOf id (messages.map fun m => ⟨alert, recipient, m⟩) =
          messages.map Message.scheduledAt := by
        unfold Notice.slotsOf
        rw [List.filter_eq_self.mpr fun n hn => ?_, List.map_map]
        · rfl
        · obtain ⟨m, -, rfl⟩ := List.mem_map.mp hn
          exact beq_iff_eq.mpr hid
      -- The recipient has budgets, so that its slot is one that they have room for.
      have hreserve : e.slots.reserve recipient e.policy.recipientOverflow now =
          (e.slots.set id (Budget.takeSlot (Budget.ofLimits maxPerHour maxPerDay)
              e.policy.recipientOverflow (e.slots.get id) now).1,
            (Budget.takeSlot (Budget.ofLimits maxPerHour maxPerDay) e.policy.recipientOverflow
              (e.slots.get id) now).2) := by
        obtain ⟨hhour, hday⟩ := hlimits hid
        have hof : Budget.ofRecipient recipient = Budget.ofLimits maxPerHour maxPerDay := by
          unfold Budget.ofRecipient Budget.ofLimits
          rw [hhour, hday]
        unfold SlotBook.reserve
        rw [hof, hid]
        split
        · next hnil => exact absurd hnil hbudgets
        · rfl
      rw [hgiven, hscheduled, hreserve, SlotBook.get_set_self]
      exact h.takeSlot (fun b hb => (Budget.bounds_of_mem_ofLimits hb).1)
        (fun b hb => (Budget.bounds_of_mem_ofLimits hb).2) _
    · have hgiven : Notice.slotsOf id (messages.map fun m => ⟨alert, recipient, m⟩) = [] := by
        unfold Notice.slotsOf
        rw [List.filter_eq_nil_iff.mpr fun n hn => ?_]
        · rfl
        · obtain ⟨m, -, rfl⟩ := List.mem_map.mp hn
          simpa using hid
      have hbook : (e.slots.reserve recipient e.policy.recipientOverflow now).1.get id =
          e.slots.get id := by
        unfold SlotBook.reserve
        split
        · rfl
        · exact e.slots.get_set_of_ne (fun hx => hid hx.symm) _
      rw [hgiven, hbook, List.append_nil]
      exact h

/-- Slots and book of a recipient, through a run that offers alerts in their order. -/
theorem booked_run {maxPerHour maxPerDay : Option UInt32}
    (hbudgets : Budget.ofLimits maxPerHour maxPerDay ≠ []) {id : String}
    {turns : List (Instant × Turn)}
    (hlimits : ∀ o ∈ Turn.offers turns, o.2.id = id →
      o.2.maxPerHour = maxPerHour ∧ o.2.maxPerDay = maxPerDay)
    (horder : (Turn.offers turns).Pairwise fun a b => a.1 ≤ b.1) {e : Engine} {start : Instant}
    {given : List Instant}
    (h : Budget.Booked (Budget.ofLimits maxPerHour maxPerDay) start given (e.slots.get id))
    (hstart : ∀ o ∈ Turn.offers turns, start ≤ o.1) :
    ∃ stop, Budget.Booked (Budget.ofLimits maxPerHour maxPerDay) stop
      (given ++ Notice.slotsOf id (e.notices turns)) ((e.run turns).slots.get id) := by
  induction turns generalizing e start given with
  | nil => exact ⟨start, by simpa [notices, observe, Notice.slotsOf, Engine.run] using h⟩
  | cons t rest ih =>
    obtain ⟨now, t⟩ := t
    have hnotices : Notice.slotsOf id (e.notices ((now, t) :: rest)) =
        Notice.slotsOf id (e.noticesOf now t) ++
          Notice.slotsOf id ((e.turn now t).notices rest) := by
      simp [notices, observe, Notice.slotsOf]
    rw [hnotices, ← List.append_assoc]
    -- Only a turn that offers an alert moves the clock of the book on, and the order is about
    -- those.
    cases hr : t.recipient? with
    | none =>
      have hoffers : Turn.offers ((now, t) :: rest) = Turn.offers rest := by
        simp [Turn.offers, hr]
      rw [hoffers] at hlimits horder hstart
      have hnone : e.noticesOf now t = [] := by
        cases t with
        | offer => simp [Turn.recipient?] at hr
        | _ => rfl
      have hturn : Budget.Booked (Budget.ofLimits maxPerHour maxPerDay) start
          (given ++ Notice.slotsOf id (e.noticesOf now t)) ((e.turn now t).slots.get id) := by
        rw [hnone, (e.turn_leaves now t).slots hr]
        simpa [Notice.slotsOf] using h
      exact ih hlimits horder hturn hstart
    | some recipient =>
      have hoffers : Turn.offers ((now, t) :: rest) = (now, recipient) :: Turn.offers rest := by
        simp [Turn.offers, hr]
      rw [hoffers] at hlimits horder hstart
      obtain ⟨hfirst, hrest⟩ := List.pairwise_cons.mp horder
      have hturn : Budget.Booked (Budget.ofLimits maxPerHour maxPerDay) now
          (given ++ Notice.slotsOf id (e.noticesOf now t)) ((e.turn now t).slots.get id) := by
        cases t with
        | offer alert r priority channelType =>
          obtain rfl : r = recipient := Option.some.inj hr
          exact booked_offer hbudgets (h.mono (hstart _ List.mem_cons_self)) alert priority
            channelType (hlimits _ List.mem_cons_self)
        | _ => simp [Turn.recipient?] at hr
      exact ih (fun o ho => hlimits o (List.mem_cons_of_mem _ ho)) hrest hturn hfirst

/-- Whatever a run does beside, no window of an hour or of a day holds more slots of a recipient
than it allows, as long as its limits stay and alerts are offered in the order of their times. -/
theorem run_withinBudgets (registry : Registry) (templates : TemplateStore)
    (directory : Directory) (policy : Policy) (idSupply : IdSupply)
    (turns : List (Instant × Turn)) (id : String)
    (maxPerHour maxPerDay : Option UInt32)
    (hlimits : ∀ o ∈ Turn.offers turns, o.2.id = id →
      o.2.maxPerHour = maxPerHour ∧ o.2.maxPerDay = maxPerDay)
    (horder : (Turn.offers turns).Pairwise fun a b => a.1 ≤ b.1) (t : Instant) :
    (∀ n, maxPerHour = some n → 0 < n → countWithin (t.sub Time.hour) t (Notice.slotsOf id
      ((create registry templates directory policy idSupply).notices turns)) ≤ n.toNat) ∧
    (∀ n, maxPerDay = some n → 0 < n → countWithin (t.sub Time.day) t (Notice.slotsOf id
      ((create registry templates directory policy idSupply).notices turns)) ≤ n.toNat) := by
  -- The first offer is the earliest, and an empty book may begin at any time before it.
  obtain ⟨start, hstart⟩ : ∃ start : Instant, ∀ o ∈ Turn.offers turns, start ≤ o.1 := by
    cases hoffers : Turn.offers turns with
    | nil => exact ⟨.epoch, fun o ho => by simp at ho⟩
    | cons first rest =>
      rw [hoffers] at horder
      refine ⟨first.1, fun o ho => ?_⟩
      rcases List.mem_cons.mp ho with rfl | ho
      · exact Int.le_refl _
      · exact (List.pairwise_cons.mp horder).1 o ho
  have hkept : ∀ b ∈ Budget.ofLimits maxPerHour maxPerDay,
      b.IsKept (Notice.slotsOf id
        ((create registry templates directory policy idSupply).notices turns)) := by
    intro b hb
    obtain ⟨stop, hbooked⟩ := booked_run (List.ne_nil_of_mem hb) hlimits horder
      (e := create registry templates directory policy idSupply) (Budget.booked_nil _ start) hstart
    exact hbooked.kept b hb
  refine ⟨fun n hn hpos => ?_, fun n hn hpos => ?_⟩
  · refine hkept ⟨n.toNat, Time.hour⟩ (List.mem_append_left _ ?_) t
    rw [hn, Budget.ofLimit?_of_pos hpos]
    exact List.mem_singleton_self _
  · refine hkept ⟨n.toNat, Time.day⟩ (List.mem_append_right _ ?_) t
    rw [hn, Budget.ofLimit?_of_pos hpos]
    exact List.mem_singleton_self _

/-- A recipient who allows two alert messages an hour and three a day. -/
def watch : Recipient :=
  { id := "watch", name := "Watch", locale := none, contacts := [(.webhook, "/watch")]
    preferences := [], severityThresholds := [(.medium, [.webhook])], quietHours := none
    maxPerHour := some 2, maxPerDay := some 3 }

/-- Alerts beyond a budget are deferred. -/
def deferring : Policy := { Policy.standard with recipientOverflow := .defer }

/-- Four alerts at once. -/
def rush : List (Instant × Turn) :=
  List.replicate 4 (.epoch, .offer blaze watch .normal .webhook)

/-- Two of them go out at once, the third an hour later and the last a day later. -/
theorem rush_withinBudgets :
    Notice.slotsOf "watch" ((create [hook] .withDefaults [] deferring).notices rush) =
      [.epoch, .epoch, Instant.epoch.add Time.hour, Instant.epoch.add Time.day] ∧
    ∀ t : Instant, countWithin (t.sub Time.hour) t (Notice.slotsOf "watch"
      ((create [hook] .withDefaults [] deferring).notices rush)) ≤ 2 := by
  have hoffers : Turn.offers rush = List.replicate 4 (.epoch, watch) := rfl
  refine ⟨by decide +kernel, fun t => ?_⟩
  refine (run_withinBudgets [hook] .withDefaults [] deferring .numbered rush "watch" (some 2)
    (some 3) (fun o ho _ => ?_) ?_ t).1 2 rfl (by decide)
  · rw [hoffers] at ho
    rw [List.eq_of_mem_replicate ho]
    exact ⟨rfl, rfl⟩
  · rw [hoffers]
    exact List.pairwise_replicate.mpr (.inr (Int.le_refl _))

end Engine

end Klaxon
