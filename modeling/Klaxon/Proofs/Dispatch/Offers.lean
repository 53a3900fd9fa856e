import Klaxon.Proofs.Dispatch.Budgets
import Klaxon.Proofs.Dispatch.Conservation

/-!
# Offers

A fan-out makes an offer for each recipient that it finds and each channel type that the recipient
wants. An offer that can reach its recipient asks for a slot, and the answers are given one after
the other, since each slot that is taken changes the book (`SlotBook.reserveAll`). This module says
what the three parts of that are: which channel types a recipient wants (`channelsFor_eq_wanted`),
which channel an offer goes out by (`Registry.IsOrdered.select_spec`), and what becomes of the slots
of each recipient (`SlotBook.IsSorted.reserveAll_perm`).
-/

namespace Klaxon

/-- An alert for a recipient over a channel type. -/
structure Offer where
  recipient : Recipient
  channelType : ChannelType

/-- What the budget of the recipient says to an offer: the slot, unless the message is dropped. -/
structure Verdict where
  offer : Offer
  slot? : Option Instant

namespace Recipient

/-- The channel types that are listed for alerts of a severity. -/
def listed (r : Recipient) (severity : Severity) : List ChannelType :=
  (r.severityThresholds.lookup severity).getD []

/-- The channel types by which alerts of a severity are wanted: those listed that are not switched
off and have an address, each where it is listed first. -/
def wanted (r : Recipient) (severity : Severity) : List ChannelType :=
  ((r.listed severity).filter fun t => r.channelEnabled t && (r.address? t).isSome).eraseDups

/-- Keeping first occurrences while going through a list is what the library's `eraseDups` does. -/
theorem firstOccurrences_eq_eraseDups (types : List ChannelType) :
    firstOccurrences types = types.eraseDups := by
  -- The induction is on the types that are left, behind those that were kept.
  have h : ∀ out : List ChannelType,
      types.foldl (fun out t => if out.contains t then out else out ++ [t]) out =
        out ++ (types.filter fun t => !out.contains t).eraseDups := by
    induction types with
    | nil => simp
    | cons t rest ih =>
      intro out
      rw [List.foldl_cons, ih]
      cases ht : out.contains t with
      | true =>
        simp only [if_true, List.filter_cons, ht, Bool.not_true, Bool.false_eq_true, if_false]
      | false =>
        have hrest : (rest.filter fun u => !(out ++ [t]).contains u) =
            (rest.filter fun u => !out.contains u).filter fun u => !u == t := by
          rw [List.filter_filter]
          refine List.filter_congr fun u _ => ?_
          simp only [List.contains_append, List.contains_cons, List.contains_nil, Bool.or_false,
            Bool.not_or, Bool.and_comm]
        simp only [Bool.false_eq_true, if_false, List.filter_cons, ht, Bool.not_false, if_true,
          List.eraseDups_cons, hrest, List.append_assoc, List.cons_append, List.nil_append]
  have hall : (types.filter fun t => !([] : List ChannelType).contains t) = types := by simp
  rw [firstOccurrences, h, hall, List.nil_append]

/-- The channel types that the engine offers an alert over are those that are wanted. -/
theorem channelsFor_eq_wanted (r : Recipient) (severity : Severity) :
    r.channelsFor severity = r.wanted severity :=
  firstOccurrences_eq_eraseDups _

/-- A channel type that is wanted has an address. -/
theorem address?_of_mem_wanted {r : Recipient} {severity : Severity} {t : ChannelType}
    (h : t ∈ r.wanted severity) : ∃ a, r.address? t = some a := by
  have hmem := (List.mem_filter.mp (List.mem_eraseDups.mp h)).2
  exact Option.isSome_iff_exists.mp (Bool.and_eq_true_iff.mp hmem).2

end Recipient

/-! ## Channels -/

/-- Whether an alert of a priority can go out by a channel as one of a type. -/
def Channel.serves (c : Channel) (channelType : ChannelType) (priority : Priority) : Bool :=
  c.channelType == channelType && (c.spec.enabled && c.healthy && c.supports priority)

namespace Registry

/-- A registry has each id once, and stands in the order of the ids. -/
def IsOrdered (r : Registry) : Prop := (r.map Channel.id).Pairwise (· < ·)

/-- The registry of channels that are added one after the other. -/
def ofChannels (channels : List Channel) : Registry :=
  channels.foldl (fun r c => (r.register c).1) []

/-- A channel in its place stands before the others or among them. -/
theorem IsOrdered.place {r : Registry} (h : r.IsOrdered) {channel : Channel}
    (hnew : ∀ c ∈ r, c.id ≠ channel.id) : (r.place channel).IsOrdered := by
  induction r with
  | nil => exact List.pairwise_singleton _ _
  | cons c rest ih =>
    unfold IsOrdered at h ih ⊢
    rw [List.map_cons, List.pairwise_cons] at h
    obtain ⟨hfirst, hrest⟩ := h
    unfold Registry.place
    split
    · next hlt =>
      rw [List.map_cons, List.map_cons, List.pairwise_cons, List.pairwise_cons]
      refine ⟨fun id hid => ?_, hfirst, hrest⟩
      rcases List.mem_cons.mp hid with rfl | hid
      · exact hlt
      · exact String.lt_trans hlt (hfirst id hid)
    · next hnlt =>
      -- The channel belongs behind this one, and all that stand behind it do, too.
      have hlt : c.id < channel.id :=
        Std.lt_of_le_of_ne (String.not_lt.mp hnlt) (hnew c List.mem_cons_self)
      rw [List.map_cons, List.pairwise_cons]
      refine ⟨fun id hid => ?_, ih hrest fun d hd => hnew d (List.mem_cons_of_mem _ hd)⟩
      have hmem := ((place_perm rest channel).map Channel.id).mem_iff.mp hid
      rcases List.mem_cons.mp hmem with rfl | hmem
      · exact hlt
      · exact hfirst id hmem

/-- A registered channel is put in its place, or refused. -/
theorem IsOrdered.register {r : Registry} (h : r.IsOrdered) (channel : Channel) :
    (r.register channel).1.IsOrdered := by
  unfold Registry.register
  split
  · exact h
  · next hfree =>
    refine h.place fun c hc hid => hfree ?_
    exact List.find?_isSome.mpr ⟨c, hc, beq_iff_eq.mpr hid⟩

/-- Channels that are added one after the other stand in the order of their ids. -/
theorem isOrdered_ofChannels (channels : List Channel) : (ofChannels channels).IsOrdered := by
  refine List.foldlRecOn channels _ (motive := IsOrdered) List.Pairwise.nil ?_
  exact fun r h c _ => h.register c

/-- Whether a registry is ordered depends on the definitions of its channels. -/
theorem IsOrdered.congr {r r' : Registry} (h : r.IsOrdered)
    (hs : r'.map Channel.spec = r.map Channel.spec) : r'.IsOrdered := by
  have hids : r'.map Channel.id = r.map Channel.id := by
    have := congrArg (List.map ChannelSpec.id) hs
    rwa [List.map_map, List.map_map] at this
  unfold IsOrdered
  rw [hids]
  exact h

/-- The channel for an alert has the least id of those that serve it. -/
theorem IsOrdered.select_spec {r : Registry} (h : r.IsOrdered) {channelType : ChannelType}
    {priority : Priority} {channel : Channel}
    (hselect : r.select channelType priority = some channel) :
    channel ∈ r ∧ channel.serves channelType priority = true ∧
      ∀ c ∈ r, c.serves channelType priority = true → channel.id ≤ c.id := by
  obtain ⟨hserves, before, behind, rfl, hbefore⟩ := List.find?_eq_some_iff_append.mp hselect
  refine ⟨by simp, hserves, fun c hc hc' => ?_⟩
  unfold IsOrdered at h
  rw [List.map_append, List.map_cons, List.pairwise_append, List.pairwise_cons] at h
  rcases List.mem_append.mp hc with hc | hc
  · -- The channels before it do not serve the alert.
    have hno := hbefore c hc
    have hyes : (c.channelType == channelType && c.isEligible priority) = true := hc'
    simp [hyes] at hno
  · rcases List.mem_cons.mp hc with rfl | hc
    · exact String.le_refl _
    · have hlt := h.2.1.1 c.id (List.mem_map_of_mem hc)
      exact Std.le_of_lt hlt

/-- No channel is found where none serves the alert. -/
theorem select_isSome (r : Registry) (channelType : ChannelType) (priority : Priority) :
    (r.select channelType priority).isSome = r.any fun c => c.serves channelType priority :=
  List.isSome_find?

end Registry

/-! ## Slots -/

namespace SlotBook

/-- The verdicts on offers, one after the other, and the book behind them. -/
def reserveAll (overflow : Overflow) (now : Instant) (b : SlotBook) :
    List Offer → SlotBook × List Verdict
  | [] => (b, [])
  | o :: rest =>
    let (b, slot?) := b.reserve o.recipient overflow now
    let (b, verdicts) := reserveAll overflow now b rest
    (b, ⟨o, slot?⟩ :: verdicts)

/-- Verdicts on more offers are given on the book behind the first ones. -/
theorem reserveAll_append {overflow : Overflow} {now : Instant} {b b' b'' : SlotBook}
    {offers more : List Offer} {verdicts others : List Verdict}
    (h : b.reserveAll overflow now offers = (b', verdicts))
    (h' : b'.reserveAll overflow now more = (b'', others)) :
    b.reserveAll overflow now (offers ++ more) = (b'', verdicts ++ others) := by
  induction offers generalizing b verdicts with
  | nil =>
    obtain ⟨rfl, rfl⟩ := Prod.mk.inj h
    exact h'
  | cons o rest ih =>
    simp only [reserveAll, Prod.mk.injEq] at h
    obtain ⟨hbook, rfl⟩ := h
    simp only [List.cons_append, reserveAll, ih (Prod.ext hbook rfl)]

/-- The slots of all recipients stand in their order. -/
def IsSorted (b : SlotBook) : Prop := ∀ id, (b.get id).Pairwise (· ≤ ·)

/-- The slots that a recipient with budgets takes with verdicts. -/
def taken (id : String) (verdicts : List Verdict) : List Instant :=
  verdicts.filterMap fun v =>
    if v.offer.recipient.id = id ∧ Budget.ofRecipient v.offer.recipient ≠ [] then v.slot? else none

end SlotBook

namespace Budget

/-- Nothing is forgotten of slots the first of which is not a day old. -/
theorem forget_eq_self {slots : List Instant} {now : Instant}
    (h : ∀ s, slots.head? = some s → now.sub Time.day < s) : forget slots now = slots := by
  cases slots with
  | nil => rfl
  | cons s rest =>
    have hs : ¬ s ≤ now.sub Time.day := Int.not_le.mpr (h s rfl)
    rw [forget, List.dropWhile_cons_of_neg (by simpa using hs)]

/-- What is not forgotten begins with a slot that is less than a day old. -/
theorem lt_of_head?_forget {slots : List Instant} {now s : Instant}
    (h : (forget slots now).head? = some s) : now.sub Time.day < s := by
  have hnot := List.head?_dropWhile_not (fun t => decide (t ≤ now.sub Time.day)) slots
  rw [forget] at h
  rw [h] at hnot
  simp only [decide_eq_false_iff_not] at hnot
  exact Int.not_le.mp hnot

/-- A slot that is put first is the new one or the old one. -/
theorem head?_insertSlot {slot s : Instant} {slots : List Instant}
    (h : (insertSlot slot slots).head? = some s) : s = slot ∨ slots.head? = some s := by
  cases slots with
  | nil =>
    rw [insertSlot, List.head?_cons] at h
    exact .inl (Option.some.inj h).symm
  | cons t rest =>
    rw [insertSlot] at h
    split at h
    · exact .inr h
    · exact .inl (Option.some.inj h).symm

/-- What was forgotten is not forgotten again, and a slot that is just taken is kept. -/
theorem forget_takeSlot {budgets : List Budget} (hpos : ∀ b ∈ budgets, 0 < b.limit)
    (overflow : Overflow) {slots : List Instant} (hsorted : slots.Pairwise (· ≤ ·))
    (now : Instant) :
    forget (takeSlot budgets overflow slots now).1 now =
        (takeSlot budgets overflow slots now).1 ∧
      (takeSlot budgets overflow slots now).1.Perm
        (forget slots now ++ (takeSlot budgets overflow slots now).2.toList) ∧
      (takeSlot budgets overflow slots now).1.Pairwise (· ≤ ·) := by
  have hforget := sorted_forget hsorted now
  rcases takeSlot_spec hpos overflow hsorted now with htake | ⟨slot, htake, hle, -⟩
  · rw [htake]
    refine ⟨forget_eq_self fun s hs => lt_of_head?_forget hs, ?_, hforget⟩
    rw [Option.toList_none, List.append_nil]
  · rw [htake]
    -- The slot is not before the request, and so it is not a day old.
    have hday : now.sub Time.day < slot := by
      have : Time.day = 86400000000000 := rfl
      simp only [Instant.le_def, Instant.lt_def, Instant.nanos_sub] at hle ⊢
      omega
    refine ⟨forget_eq_self fun s hs => ?_, ?_, sorted_insertSlot slot hforget⟩
    · rcases head?_insertSlot hs with rfl | hs
      · exact hday
      · exact lt_of_head?_forget hs
    · rw [Option.toList_some]
      exact (insertSlot_perm slot _).trans (List.perm_append_singleton slot _).symm

/-- The budgets of a recipient have limits. -/
theorem limit_pos_of_mem_ofRecipient {r : Recipient} {b : Budget} (hb : b ∈ ofRecipient r) :
    0 < b.limit := by
  have hlimits : b ∈ ofLimits r.maxPerHour r.maxPerDay := hb
  exact (bounds_of_mem_ofLimits hlimits).1

end Budget

namespace SlotBook

/-- What a reservation does to the book: nothing for a recipient without budgets, and else it takes
a slot for the recipient. -/
theorem reserve_spec (b : SlotBook) (r : Recipient) (overflow : Overflow) (now : Instant) :
    (Budget.ofRecipient r = [] ∧ b.reserve r overflow now = (b, some now)) ∨
    (Budget.ofRecipient r ≠ [] ∧ b.reserve r overflow now =
      (b.set r.id (Budget.takeSlot (Budget.ofRecipient r) overflow (b.get r.id) now).1,
        (Budget.takeSlot (Budget.ofRecipient r) overflow (b.get r.id) now).2)) := by
  unfold reserve
  cases hbudgets : Budget.ofRecipient r with
  | nil => exact .inl ⟨rfl, rfl⟩
  | cons budget rest => exact .inr ⟨by simp, rfl⟩

/-- A reservation keeps the slots of all recipients in their order. -/
theorem IsSorted.reserve {b : SlotBook} (h : b.IsSorted) (r : Recipient) (overflow : Overflow)
    (now : Instant) : (b.reserve r overflow now).1.IsSorted := by
  rcases b.reserve_spec r overflow now with ⟨-, hreserve⟩ | ⟨-, hreserve⟩
  · rw [hreserve]
    exact h
  · rw [hreserve]
    intro id
    by_cases hid : id = r.id
    · subst hid
      rw [get_set_self]
      exact (Budget.forget_takeSlot (fun _ => Budget.limit_pos_of_mem_ofRecipient) overflow
        (h r.id) now).2.2
    · rw [get_set_of_ne b hid]
      exact h id

/-- Behind the verdicts on offers a recipient has the slots that it took with them, and of those
from before all that are not a day old; older ones may be forgotten. -/
theorem IsSorted.reserveAll_perm {b : SlotBook} (h : b.IsSorted) (overflow : Overflow)
    (now : Instant) (offers : List Offer) (id : String) :
    ∃ kept, (kept = b.get id ∨ kept = Budget.forget (b.get id) now) ∧
      ((b.reserveAll overflow now offers).1.get id).Perm
        (kept ++ taken id (b.reserveAll overflow now offers).2) := by
  induction offers generalizing b with
  | nil => exact ⟨b.get id, .inl rfl, by simp [reserveAll, taken]⟩
  | cons o rest ih =>
    obtain ⟨kept, hkept, hperm⟩ := ih (h.reserve o.recipient overflow now)
    simp only [reserveAll]
    rcases b.reserve_spec o.recipient overflow now with ⟨hnone, hreserve⟩ | ⟨hsome, hreserve⟩
    · rw [hreserve] at hkept hperm
      rw [hreserve]
      refine ⟨kept, hkept, ?_⟩
      simpa [taken, hnone] using hperm
    · by_cases hid : o.recipient.id = id
      · -- Only the first slot that is taken at this time forgets anything.
        obtain ⟨hfresh, htook, -⟩ := Budget.forget_takeSlot
          (fun _ => Budget.limit_pos_of_mem_ofRecipient (r := o.recipient)) overflow
          (h o.recipient.id) now
        rw [hreserve, ← hid, get_set_self, hfresh, or_self] at hkept
        rw [hreserve] at hperm
        rw [hreserve]
        refine ⟨Budget.forget (b.get id) now, .inr rfl, hperm.trans ?_⟩
        rw [hkept, ← hid]
        refine (htook.append_right _).trans ?_
        rw [List.append_assoc]
        refine List.Perm.append_left _ (.of_eq ?_)
        cases hslot : (Budget.takeSlot (Budget.ofRecipient o.recipient) overflow
            (b.get o.recipient.id) now).2 <;> simp [taken, hsome]
      · -- The slot is for another recipient, so that nothing of this one changes.
        have hne : id ≠ o.recipient.id := fun hx => hid hx.symm
        rw [hreserve] at hkept hperm
        rw [hreserve]
        rw [get_set_of_ne b hne] at hkept
        refine ⟨kept, hkept, ?_⟩
        simpa [taken, hid] using hperm

end SlotBook

namespace Engine

/-- In every run the slots of all recipients stand in their order. -/
theorem sorted_run {e : Engine} (h : e.slots.IsSorted) (turns : List (Instant × Turn)) :
    (e.run turns).slots.IsSorted := by
  induction turns generalizing e with
  | nil => exact h
  | cons t rest ih =>
    obtain ⟨now, t⟩ := t
    refine ih ?_
    -- Only where an alert is offered a slot may be taken.
    cases hr : t.recipient? with
    | none => rw [(e.turn_leaves now t).slots hr]; exact h
    | some recipient =>
      cases t with
      | offer alert r priority channelType =>
        rcases e.offer_slots now alert r priority channelType with ⟨hslots, -⟩ | ⟨hslots, -⟩
        · rw [hslots]; exact h
        · rw [hslots]; exact h.reserve r _ now
      | _ => simp [Turn.recipient?] at hr

end Engine

end Klaxon
