import Mathlib.Algebra.GroupWithZero.Nat
import Klaxon.Proofs.Dispatch.Simulation

/-!
# No message is lost, and none is queued twice

`run_accounted` counts, in every engine that a run leads to, the handles of each id: how often it
stands in the lanes, its timers and its flights. There is one at most. A message that waits has
exactly one, and if that is a lane it is the lane of the message; a message that is being sent has
exactly one, and that is a flight; and nothing brings a message on that was delivered or failed.
-/

namespace Klaxon

/-- How often a handle stands in all lanes. -/
def Handle.lanesCount : Option Handle → Nat
  | some (.lane _) => 1
  | _ => 0

namespace Engine

/-- How often an id stands in the lanes. -/
def laneHandles (e : Engine) (id : String) : Nat :=
  (Priority.all.map fun p => (e.lanes.get p).count id).sum

/-- The number of timers of an id. -/
def timerHandles (e : Engine) (id : String) : Nat := e.timers.countP fun t => t.messageId == id

/-- The number of flights of an id. -/
def flightHandles (e : Engine) (id : String) : Nat := e.flights.countP fun f => f.messageId == id

/-- The number of all that brings the message of an id on. -/
def handles (e : Engine) (id : String) : Nat :=
  e.laneHandles id + e.timerHandles id + e.flightHandles id

/-- Every message is brought on as its status asks for. -/
structure Accounted (e : Engine) : Prop where
  nodup : (e.messages.map Message.id).Nodup
  /-- This counts the ids of forgotten messages, too. -/
  atMostOne : ∀ id, e.handles id ≤ 1
  queued : ∀ m ∈ e.messages, m.status = .queued → e.handles m.id = 1 ∧
    (∀ p, m.id ∈ e.lanes.get p → p = m.priority) ∧
    ∀ t ∈ e.timers, t.messageId = m.id → t.priority = m.priority
  sending : ∀ m ∈ e.messages, m.status = .sending → e.handles m.id = 1 ∧
    e.flightHandles m.id = 1 ∧ e.stage? m.id ≠ some .pulled
  settled : ∀ m ∈ e.messages, m.status = .delivered ∨ m.status = .failed →
    e.laneHandles m.id = 0 ∧ e.timerHandles m.id = 0
  /-- Between deliveries every message waits in one place or is over. -/
  atRest : e.flights = [] → ∀ m ∈ e.messages, m.status ≠ .sending ∧
    (m.status = .queued → e.laneHandles m.id + e.timerHandles m.id = 1)

/-! ## Counting by position -/

variable {e₀ e : Engine} {past : List Happening} {id : String} {v : Position}

/-- The lanes hold an id as often as its handle says. -/
theorem At.laneHandles_eq (h : e.At id v) : e.laneHandles id = Handle.lanesCount v.handle := by
  -- One lane holds the id at most, so that the sum over the lanes has one summand.
  have hl : (fun p => (e.lanes.get p).count id) = Handle.laneCount v.handle := funext h.lanes
  unfold laneHandles
  rw [hl]
  rcases v.handle with _ | p | t | s
  · rfl
  · cases p <;> rfl
  · rfl
  · rfl

/-- The timers of an id are as many as its handle says. -/
theorem At.timerHandles_eq (h : e.At id v) :
    e.timerHandles id = (Handle.timers v.handle).length := by
  rw [← h.timers]
  exact List.countP_eq_length_filter

/-- The flights of an id are as many as its handle says. -/
theorem At.flightHandles_eq (h : e.At id v) :
    e.flightHandles id = (Handle.flights id v.handle).length := by
  rw [← h.flights]
  exact List.countP_eq_length_filter

/-- A handle is counted once. -/
theorem At.handles_eq (h : e.At id v) : e.handles id = if v.handle.isSome then 1 else 0 := by
  unfold handles
  rw [h.laneHandles_eq, h.timerHandles_eq, h.flightHandles_eq]
  rcases v.handle with _ | _ | _ | _ <;> rfl

/-- A stored message has a position. -/
theorem Sound.position (h : Sound e₀ e past) {m : Message} (hm : m ∈ e.messages) :
    ∃ x, e.At m.id ⟨some m, x⟩ ∧ Life e₀ m.id (Happening.about m.id past) ⟨some m, x⟩ := by
  obtain ⟨⟨_, x⟩, hat, hlife⟩ := h.life m.id
  obtain rfl := (message?_of_mem h.nodup hm).symm.trans hat.message
  exact ⟨x, hat, hlife⟩

/-! ## Every run -/

/-- A message that waits has one handle, and that leads to its lane. -/
theorem Sound.handle_of_queued (h : Sound e₀ e past) {m : Message} (hm : m ∈ e.messages)
    (hs : m.status = .queued) :
    ∃ x : Handle, e.At m.id ⟨some m, some x⟩ ∧ x.IsIdle ∧ x.LeadsTo m.priority := by
  obtain ⟨x, hat, hlife⟩ := h.position hm
  cases hlife.fits.shape with
  | queued _ hi hp => exact ⟨_, hat, hi, hp⟩
  | claimed hq => simp [hs] at hq
  | calling hq => simp [hs] at hq
  | settled hq => simp [hs] at hq
  | cancelled hq => simp [hs] at hq

/-- A message that is being sent is claimed, or its call is under way. -/
theorem Sound.handle_of_sending (h : Sound e₀ e past) {m : Message} (hm : m ∈ e.messages)
    (hs : m.status = .sending) :
    ∃ s, e.At m.id ⟨some m, some (.flight s)⟩ ∧ s ≠ .pulled := by
  obtain ⟨x, hat, hlife⟩ := h.position hm
  cases hlife.fits.shape with
  | queued hq => simp [hs] at hq
  | claimed => exact ⟨_, hat, by simp⟩
  | calling => exact ⟨_, hat, by simp⟩
  | settled hq => simp [hs] at hq
  | cancelled hq => simp [hs] at hq

/-- A message that was delivered or failed has no handle. -/
theorem Sound.handle_of_over (h : Sound e₀ e past) {m : Message} (hm : m ∈ e.messages)
    (hs : m.status = .delivered ∨ m.status = .failed) : e.At m.id ⟨some m, none⟩ := by
  obtain ⟨x, hat, hlife⟩ := h.position hm
  cases hlife.fits.shape with
  | queued hq => simp [hq] at hs
  | claimed hq => simp [hq] at hs
  | calling hq => simp [hq] at hs
  | settled => exact hat
  | cancelled hq => simp [hq] at hs

/-- Where every message has a life, the shapes of its positions account for its handles. -/
theorem Sound.accounted (h : Sound e₀ e past) : e.Accounted where
  nodup := h.nodup
  atMostOne id := by
    obtain ⟨v, hat, -⟩ := h.life id
    rw [hat.handles_eq]
    split <;> decide
  queued m hm hs := by
    obtain ⟨x, hat, -, hleads⟩ := h.handle_of_queued hm hs
    refine ⟨hat.handles_eq, fun p hp => ?_, fun t ht htm => ?_⟩
    · -- The one handle is this place in a lane, which is that of the priority.
      obtain rfl := Option.some.inj (hat.handle_of_mem_lane hp)
      exact hleads
    · rw [← htm] at hat
      obtain rfl := Option.some.inj (hat.handle_of_mem_timers ht)
      exact hleads
  sending m hm hs := by
    obtain ⟨s, hat, hne⟩ := h.handle_of_sending hm hs
    refine ⟨hat.handles_eq, hat.flightHandles_eq, fun hpulled => hne ?_⟩
    exact Option.some.inj (hat.stage?.symm.trans hpulled)
  settled m hm hs := by
    have hat := h.handle_of_over hm hs
    exact ⟨hat.laneHandles_eq, hat.timerHandles_eq⟩
  atRest hrest m hm := by
    refine ⟨fun hs => ?_, fun hs => ?_⟩
    · -- A message that is being sent has a flight, and there are none.
      obtain ⟨s, hat, -⟩ := h.handle_of_sending hm hs
      have hone := hat.flightHandles_eq
      simp [flightHandles, hrest, Handle.flights] at hone
    · -- Its one handle is no flight, so that it is in a lane or behind a timer.
      obtain ⟨x, hat, -, -⟩ := h.handle_of_queued hm hs
      have hone : e.handles m.id = 1 := hat.handles_eq
      have hnone : e.flightHandles m.id = 0 := by simp [flightHandles, hrest]
      unfold handles at hone
      omega

/-- Whatever a run does, and in whatever order, every message is brought on as its status asks
for. -/
theorem run_accounted (registry : Registry) (templates : TemplateStore) (directory : Directory)
    (policy : Policy) (idSupply : IdSupply) (turns : List (Instant × Turn)) :
    ((create registry templates directory policy idSupply).run turns).Accounted :=
  (run_sound registry templates directory policy idSupply turns).accounted

end Engine

end Klaxon
