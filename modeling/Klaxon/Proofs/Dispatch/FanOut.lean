import Mathlib.Data.List.Forall2
import Klaxon.Proofs.Dispatch.Offers

/-!
# Fan-outs

`run_fanOut` says what a fan-out makes, after any run: it finds the recipients of its list, counts
those whose quiet hours hold the alert back, and makes an offer for each channel type that the
others want. Offers that can reach nobody are passed over; the others ask for slots, one after the
other. Where a slot is granted there is one message, where it is refused one is counted as dropped,
and nothing else changes.

`Offered` says so of any list of offers that were made in one engine. It holds of each offer
(`notifyOver_offered`) and goes on from one list to the next (`Offered.append`), so that it holds of
all of them.
-/

namespace Klaxon

/-- What a message says that is made for an offer with its slot. -/
structure Message.Announces (m : Message) (registry : Registry) (templateId : String)
    (alert : Alert) (priority : Priority) (now : Instant) (offer : Offer) (slot : Instant) :
    Prop where
  alertId : m.alertId = some alert.id
  /-- The channel has the least id of those that serve the offer. -/
  channel : ∃ c ∈ registry, c.serves offer.channelType priority = true ∧ m.channelId = c.id ∧
    ∀ d ∈ registry, d.serves offer.channelType priority = true → c.id ≤ d.id
  channelType : m.channelType = offer.channelType
  recipientId : m.recipient.id = offer.recipient.id
  recipientName : m.recipient.name = offer.recipient.name
  address : offer.recipient.address? offer.channelType = some m.recipient.address
  templateId : m.templateId = templateId
  priority : m.priority = priority
  scheduledAt : m.scheduledAt = slot
  createdAt : m.createdAt = now
  status : m.status = .queued
  attempts : m.attempts = []
  context : m.context = Json.ofMembers
    [("alert", alert.templateContext), ("recipient", offer.recipient.templateContext)]

namespace Verdict

/-- The offers to which slots were granted, with their slots. -/
def granted (verdicts : List Verdict) : List (Offer × Instant) :=
  verdicts.filterMap fun v => v.slot?.map fun slot => (v.offer, slot)

/-- The number of offers that the budgets refused. -/
def dropped (verdicts : List Verdict) : Nat := verdicts.countP fun v => v.slot?.isNone

end Verdict

/-- To suppress nothing changes nothing. -/
theorem Statistics.suppressed_add_zero (s : Statistics) :
    { s with suppressed := s.suppressed + .ofNat 0 } = s :=
  congrArg (fun n => { s with suppressed := n }) (UInt64.add_zero s.suppressed)

namespace Engine

/-- Whether the template for alerts has a variant for a channel type. -/
def hasVariant (e : Engine) (channelType : ChannelType) : Bool :=
  (e.templates.get? e.policy.alertTemplateId).any fun t => t.supports channelType

/-- Whether an offer can reach its recipient: there are a variant of the template and a channel. -/
def canReach (e : Engine) (priority : Priority) (o : Offer) : Bool :=
  e.hasVariant o.channelType && e.registry.any fun c => c.serves o.channelType priority

/-- Whether the directory knows an id, and the alert is held back from its recipient. -/
def holdsBack (e : Engine) (alert : Alert) (now : Instant) (id : String) : Bool :=
  (e.directory.get? id).any fun r => isHeldBack alert r now

/-- The offers for an id: one for each channel type that its recipient wants, if the directory knows
the id and the alert is not held back. -/
def offersTo (e : Engine) (alert : Alert) (now : Instant) (id : String) : List Offer :=
  ((e.directory.get? id).toList.filter fun r => !isHeldBack alert r now).flatMap fun r =>
    (r.wanted alert.severity).map fun t => ⟨r, t⟩

/-- Offers were made in an engine, and some alerts were held back: what the budgets said to the
offers that can reach their recipients, and what came of it. -/
structure Offered (alert : Alert) (priority : Priority) (now : Instant) (e : Engine) (held : Nat)
    (offers : List Offer) (verdicts : List Verdict) (result : Engine × List Message) : Prop where
  /-- The budgets are asked for the offers that can reach their recipients, in their order. -/
  asked : e.slots.reserveAll e.policy.recipientOverflow now (offers.filter (e.canReach priority)) =
    (result.1.slots, verdicts)
  /-- There is one message for each slot that was granted, in their order. -/
  announced : List.Forall₂ (fun granted m =>
      m.Announces e.registry e.policy.alertTemplateId alert priority now granted.1 granted.2)
    (Verdict.granted verdicts) result.2
  suppressed : result.1.statistics = { e.statistics with
    suppressed := e.statistics.suppressed + .ofNat (held + Verdict.dropped verdicts) }
  /-- The messages are new. -/
  ids : result.2.map Message.id =
    (List.range result.2.length).map fun i => e.idSupply.id .message (e.made + i + 1)
  made : result.1.made = e.made + result.2.length
  stored : result.1.messages = e.messages ++ result.2
  /-- The messages that can go out at once wait in their lane. -/
  lanes : ∀ p, result.1.lanes.get p = e.lanes.get p ++
    if p = priority then (result.2.filter fun m => !decide (now < m.scheduledAt)).map Message.id
    else []
  /-- The others wait for their timers. -/
  timers : result.1.timers = e.timers ++
    (result.2.filter fun m => decide (now < m.scheduledAt)).map fun m =>
      ⟨m.id, priority, m.scheduledAt⟩
  flights : result.1.flights = e.flights
  registry : result.1.registry = e.registry
  templates : result.1.templates = e.templates
  directory : result.1.directory = e.directory
  policy : result.1.policy = e.policy
  idSupply : result.1.idSupply = e.idSupply

variable {alert : Alert} {priority : Priority} {now : Instant} {e : Engine}

/-- Nothing is offered, or nothing that can reach anybody. -/
theorem Offered.skip {offers : List Offer} (h : ∀ o ∈ offers, e.canReach priority o = false) :
    Offered alert priority now e 0 offers [] (e, []) where
  asked := by
    rw [List.filter_eq_nil_iff.mpr fun o ho => by simp [h o ho]]
    rfl
  announced := .nil
  suppressed := e.statistics.suppressed_add_zero.symm
  ids := rfl
  made := rfl
  stored := (List.append_nil _).symm
  lanes p := by simp
  timers := (List.append_nil _).symm
  flights := rfl
  registry := rfl
  templates := rfl
  directory := rfl
  policy := rfl
  idSupply := rfl

/-- An alert is held back. -/
theorem Offered.heldBack :
    Offered alert priority now e 1 [] []
      ({ e with statistics := e.statistics.recordSuppressed }, []) where
  asked := rfl
  announced := .nil
  suppressed := rfl
  ids := rfl
  made := rfl
  stored := (List.append_nil _).symm
  lanes p := by simp
  timers := (List.append_nil _).symm
  flights := rfl
  registry := rfl
  templates := rfl
  directory := rfl
  policy := rfl
  idSupply := rfl

/-- More offers are made. -/
theorem Offered.append {held more : Nat} {offers others : List Offer} {vs ws : List Verdict}
    {r r' : Engine × List Message} (h : Offered alert priority now e held offers vs r)
    (h' : Offered alert priority now r.1 more others ws r') :
    Offered alert priority now e (held + more) (offers ++ others) (vs ++ ws) (r'.1, r.2 ++ r'.2)
    where
  asked := by
    -- The first offers leave templates, policy and channels alone, so that the others are judged as
    -- at the start.
    have hreach : r.1.canReach priority = e.canReach priority := by
      funext o
      simp only [canReach, hasVariant, h.templates, h.policy, h.registry]
    have hasked := h'.asked
    rw [h.policy, hreach] at hasked
    rw [List.filter_append]
    exact SlotBook.reserveAll_append h.asked hasked
  announced := by
    have hannounced := h'.announced
    rw [h.registry, h.policy] at hannounced
    rw [Verdict.granted, List.filterMap_append]
    exact List.rel_append h.announced hannounced
  suppressed := by
    have hdropped : Verdict.dropped (vs ++ ws) = Verdict.dropped vs + Verdict.dropped ws :=
      List.countP_append
    -- The word of what both suppress is the sum of the words.
    have hcount : UInt64.ofNat (held + more + Verdict.dropped (vs ++ ws)) =
        .ofNat (held + Verdict.dropped vs) + .ofNat (more + Verdict.dropped ws) := by
      rw [hdropped, ← UInt64.ofNat_add]
      congr 1
      omega
    rw [h'.suppressed, h.suppressed, hcount, UInt64.add_assoc]
  ids := by
    rw [List.map_append, List.length_append, map_range_add, h.ids, h'.ids, h.made, h.idSupply]
  made := by rw [h'.made, h.made, List.length_append, Nat.add_assoc]
  stored := by rw [h'.stored, h.stored, List.append_assoc]
  lanes p := by
    rw [h'.lanes, h.lanes, List.append_assoc]
    split
    · rw [List.filter_append, List.map_append]
    · rfl
  timers := by rw [h'.timers, h.timers, List.append_assoc, List.filter_append, List.map_append]
  flights := h'.flights.trans h.flights
  registry := h'.registry.trans h.registry
  templates := h'.templates.trans h.templates
  directory := h'.directory.trans h.directory
  policy := h'.policy.trans h.policy
  idSupply := h'.idSupply.trans h.idSupply

/-! ## One offer -/

/-- An offer to an address goes out if the template and the registry have what it needs. -/
theorem routeFor?_eq {recipient : Recipient} {channelType : ChannelType} {address : String}
    (ha : recipient.address? channelType = some address) :
    e.routeFor? recipient priority channelType =
      if e.hasVariant channelType then
        (e.registry.select channelType priority).map fun c => (c, address)
      else none := by
  unfold routeFor? checkTemplate hasVariant
  cases e.templates.get? e.policy.alertTemplateId with
  | none => rfl
  | some t =>
    cases hsupports : t.supports channelType with
    | false => simp [hsupports]
    | true =>
      cases e.registry.select channelType priority <;> simp [hsupports, ha]

/-- A message is accepted for an offer with its slot. -/
theorem accept_offered {o : Offer} {slots : SlotBook} {slot : Instant} {d : Draft}
    (hreach : e.canReach priority o = true)
    (hasked : e.slots.reserve o.recipient e.policy.recipientOverflow now = (slots, some slot))
    (hpriority : d.priority = priority) (hslot : d.scheduledAt = slot)
    (hannounces : (d.toMessage e.nextId now).Announces e.registry e.policy.alertTemplateId alert
      priority now o slot) :
    Offered alert priority now e 0 [o] [⟨o, some slot⟩]
      (({ e with slots }.accept d now).1, [({ e with slots }.accept d now).2]) := by
  subst hpriority hslot
  rw [accept_snd]
  have hid : ({ e with slots } : Engine).nextId = e.nextId := rfl
  have hfirst : (List.range 1).map (fun i => e.idSupply.id .message (e.made + i + 1)) =
      [e.nextId] := rfl
  have hnone : e.statistics = { e.statistics with
      suppressed := e.statistics.suppressed +
        .ofNat (0 + Verdict.dropped [⟨o, some d.scheduledAt⟩]) } :=
    e.statistics.suppressed_add_zero.symm
  unfold accept
  -- A later slot puts the message on a timer, any other one into its lane.
  by_cases hlater : now < d.scheduledAt
  · simp only [hlater, if_true]
    refine ⟨?_, .cons hannounces .nil, hnone, hfirst.symm, rfl, rfl, fun p => ?_, ?_, rfl, rfl,
      rfl, rfl, rfl, rfl⟩
    · simp [hreach, SlotBook.reserveAll, hasked]
    · simp [Draft.toMessage, hlater]
    · simp [Draft.toMessage, hlater]
  · simp only [hlater, if_false]
    refine ⟨?_, .cons hannounces .nil, hnone, hfirst.symm, rfl, rfl, fun p => ?_, ?_, rfl, rfl,
      rfl, rfl, rfl, rfl⟩
    · simp [hreach, SlotBook.reserveAll, hasked]
    · rw [Lanes.get_push]
      by_cases hp : p = d.priority <;> simp [hp, Draft.toMessage, hlater]
    · simp [Draft.toMessage, hlater]

/-- What comes of one offer. -/
theorem notifyOver_offered (hordered : e.registry.IsOrdered) (o : Offer) {address : String}
    (ha : o.recipient.address? o.channelType = some address) :
    ∃ verdicts, Offered alert priority now e 0 [o] verdicts
      (e.notifyOver alert o.recipient priority now o.channelType) := by
  have hroute : e.routeFor? o.recipient priority o.channelType =
      if e.hasVariant o.channelType then
        (e.registry.select o.channelType priority).map fun c => (c, address)
      else none := routeFor?_eq ha
  have hreach : e.canReach priority o =
      (e.hasVariant o.channelType && (e.registry.select o.channelType priority).isSome) := by
    rw [canReach, Registry.select_isSome]
  unfold notifyOver
  -- The budget is asked only where there are a variant and a channel.
  cases hvariant : e.hasVariant o.channelType with
  | false =>
    rw [hroute, hvariant]
    refine ⟨[], .skip fun p hp => ?_⟩
    rw [List.mem_singleton.mp hp, hreach, hvariant, Bool.false_and]
  | true =>
    cases hselect : e.registry.select o.channelType priority with
    | none =>
      rw [hroute, hvariant, hselect]
      refine ⟨[], .skip fun p hp => ?_⟩
      rw [List.mem_singleton.mp hp, hreach, hvariant, hselect]
      rfl
    | some channel =>
      rw [hvariant, hselect] at hreach
      rw [hroute, hvariant, hselect]
      obtain ⟨hmem, hserves, hleast⟩ := hordered.select_spec hselect
      cases hasked : e.slots.reserve o.recipient e.policy.recipientOverflow now with
      | mk slots slot? =>
        cases slot? with
        | none =>
          -- The budget refuses: one verdict without a slot, and no message.
          refine ⟨[⟨o, none⟩], ?_, .nil, rfl, rfl, rfl, (List.append_nil _).symm, fun p => ?_,
            (List.append_nil _).symm, rfl, rfl, rfl, rfl, rfl, rfl⟩
          · simp [hreach, SlotBook.reserveAll, hasked]
          · simp
        | some slot =>
          refine ⟨[⟨o, some slot⟩], accept_offered hreach hasked rfl rfl ?_⟩
          exact ⟨rfl, ⟨channel, hmem, hserves, rfl, hleast⟩, rfl, rfl, rfl, ha, rfl, rfl, rfl, rfl,
            rfl, rfl, rfl⟩

/-! ## Lists of offers -/

/-- Offers are made item by item. -/
theorem Offered.collect {α : Type} {make : Engine → α → Engine × List Message} {held : α → Bool}
    {offers : α → List Offer} {directory : Directory} (items : List α)
    (h : ∀ (e : Engine), ∀ a ∈ items, e.directory = directory → e.registry.IsOrdered →
      ∃ verdicts, Offered alert priority now e (if held a then 1 else 0) (offers a) verdicts
        (make e a))
    (hd : e.directory = directory) (hordered : e.registry.IsOrdered) :
    ∃ verdicts, Offered alert priority now e (items.countP held) (items.flatMap offers) verdicts
      (Engine.collect make e items) := by
  induction items generalizing e with
  | nil => exact ⟨[], .skip fun o ho => by simp at ho⟩
  | cons a rest ih =>
    -- Directory and registry are those of the start, item by item, so that the hypothesis goes on.
    obtain ⟨vs, hfirst⟩ := h e a List.mem_cons_self hd hordered
    obtain ⟨ws, hrest⟩ := ih (fun e a ha => h e a (List.mem_cons_of_mem _ ha))
      (hfirst.directory.trans hd) (hfirst.registry ▸ hordered)
    refine ⟨vs ++ ws, ?_⟩
    rw [List.countP_cons, Nat.add_comm, List.flatMap_cons]
    exact hfirst.append hrest

/-- What comes of the offers for an id. -/
theorem notifyRecipient_offered (hordered : e.registry.IsOrdered) (id : String) :
    ∃ verdicts, Offered alert priority now e (if e.holdsBack alert now id then 1 else 0)
      (e.offersTo alert now id) verdicts (notifyRecipient alert priority now e id) := by
  unfold notifyRecipient holdsBack offersTo
  cases e.directory.get? id with
  | none => exact ⟨[], .skip fun o ho => by simp at ho⟩
  | some recipient =>
    cases hheld : isHeldBack alert recipient now with
    | true =>
      refine ⟨[], ?_⟩
      simp only [Option.any_some, hheld, Option.toList_some, List.filter_cons, List.filter_nil,
        Bool.not_true, Bool.false_eq_true, if_true, if_false, List.flatMap_nil]
      exact .heldBack
    | false =>
      simp only [Option.any_some, hheld, Option.toList_some, List.filter_cons, List.filter_nil,
        Bool.not_false, Bool.false_eq_true, if_true, if_false, List.flatMap_cons, List.flatMap_nil,
        List.append_nil]
      -- The alert is offered over each channel type that is wanted, and none of these is held back.
      rw [Recipient.channelsFor_eq_wanted, List.map_eq_flatMap]
      have hcollect : ∃ verdicts, Offered alert priority now e
          ((recipient.wanted alert.severity).countP fun _ => false)
          ((recipient.wanted alert.severity).flatMap fun t => [⟨recipient, t⟩]) verdicts
          (Engine.collect (fun e t => e.notifyOver alert recipient priority now t) e
            (recipient.wanted alert.severity)) := by
        refine Offered.collect _ (fun e' t ht _ hordered' => ?_) rfl hordered
        obtain ⟨a, ha⟩ := Recipient.address?_of_mem_wanted ht
        exact notifyOver_offered hordered' ⟨recipient, t⟩ ha
      simpa using hcollect

/-- What comes of a fan-out. -/
theorem fanOut_offered (hordered : e.registry.IsOrdered) (ids : List String) :
    ∃ verdicts, Offered alert priority now e (ids.countP (e.holdsBack alert now))
      (ids.flatMap (e.offersTo alert now)) verdicts (e.fanOut alert ids priority now) := by
  refine Offered.collect ids (fun e' id _ hd hordered' => ?_) rfl hordered
  have hsame : ∃ verdicts, Offered alert priority now e'
      (if e'.holdsBack alert now id then 1 else 0) (e'.offersTo alert now id) verdicts
      (notifyRecipient alert priority now e' id) :=
    notifyRecipient_offered hordered' id
  have hheld : e'.holdsBack alert now id = e.holdsBack alert now id := by
    rw [holdsBack, holdsBack, hd]
  have hoffers : e'.offersTo alert now id = e.offersTo alert now id := by
    rw [offersTo, offersTo, hd]
  rwa [hheld, hoffers] at hsame

/-- Turns that are no requests make no message, suppress none and take no slot. -/
theorem run_of_not_isRequest {turns : List (Instant × Turn)}
    (h : ∀ t ∈ turns, t.2.isRequest = false) :
    (e.run turns).made = e.made ∧ (e.run turns).slots = e.slots ∧
      (e.run turns).statistics.suppressed = e.statistics.suppressed := by
  induction turns generalizing e with
  | nil => exact ⟨rfl, rfl, rfl⟩
  | cons t rest ih =>
    obtain ⟨now, t⟩ := t
    have hno : t.isRequest = false := h (now, t) List.mem_cons_self
    have hnobody : t.recipient? = none := by
      cases t with
      | offer => simp [Turn.isRequest] at hno
      | _ => rfl
    have hleaves := e.turn_leaves now t
    obtain ⟨hmade, hslots, hsuppressed⟩ := ih (e := e.turn now t)
      fun u hu => h u (List.mem_cons_of_mem _ hu)
    exact ⟨hmade.trans (hleaves.made hno), hslots.trans (hleaves.slots hnobody),
      hsuppressed.trans (hleaves.suppressed hno)⟩

/-- After every run, a fan-out makes the messages of the offers to which slots are granted, and no
others: each by the channel with the least id that serves it, to the address of the recipient, at
the priority of the fan-out and for the time of its slot. The alerts that were held back and the
offers that were refused are counted, the slots of each recipient are those from before, as far as
they are not forgotten, and those of the messages, and what follows a fan-out without a request adds
nothing to it. -/
theorem run_fanOut (channels : List Channel) (templates : TemplateStore) (directory : Directory)
    (policy : Policy) (idSupply : IdSupply) (turns : List (Instant × Turn)) (alert : Alert)
    (ids : List String) (priority : Priority) (now : Instant) :
    let e := (create (.ofChannels channels) templates directory policy idSupply).run turns
    let after := e.fanOut alert ids priority now
    ∃ verdicts,
      Offered alert priority now e (ids.countP (e.holdsBack alert now))
        (ids.flatMap (e.offersTo alert now)) verdicts after ∧
      (∀ id, ∃ kept, (kept = e.slots.get id ∨ kept = Budget.forget (e.slots.get id) now) ∧
        (after.1.slots.get id).Perm (kept ++ SlotBook.taken id verdicts)) ∧
      ∀ more : List (Instant × Turn), (∀ t ∈ more, t.2.isRequest = false) →
        (after.1.run more).made = after.1.made ∧ (after.1.run more).slots = after.1.slots ∧
          (after.1.run more).statistics.suppressed = after.1.statistics.suppressed := by
  intro e after
  have hsound := run_sound (.ofChannels channels) templates directory policy idSupply turns
  have hordered : e.registry.IsOrdered :=
    (Registry.isOrdered_ofChannels channels).congr hsound.specs
  have hsorted : e.slots.IsSorted := sorted_run (fun id => List.Pairwise.nil) turns
  obtain ⟨verdicts, hoffered⟩ : ∃ verdicts,
      Offered alert priority now e (ids.countP (e.holdsBack alert now))
        (ids.flatMap (e.offersTo alert now)) verdicts after := fanOut_offered hordered ids
  refine ⟨verdicts, hoffered, fun id => ?_, fun more hmore => run_of_not_isRequest hmore⟩
  -- The slots are those that the verdicts grant, since the budgets were asked for these offers
  -- only.
  have hslots := hsorted.reserveAll_perm e.policy.recipientOverflow now
    ((ids.flatMap (e.offersTo alert now)).filter (e.canReach priority)) id
  rwa [hoffered.asked] at hslots

end Engine

end Klaxon
