import Klaxon.Proofs.Dispatch.Simulation

/-!
# Batches

The ids of a batch are taken up one after the other, and their calls may end in between. None of
this touches the other ids of the batch: each is still as it was pulled when its turn comes
(`Sound.pulled_of_pull`, `Sound.takeUp_agrees`, `Sound.complete_agrees`). `Sound.turn_agrees` says
so of all turns that work on a message.
-/

namespace Klaxon

namespace Engine

variable {e₀ e : Engine} {past : List Happening}

/-- An engine that is reached from a sound one is sound. -/
theorem Sound.of_reaches (h : Sound e₀ e past) {e' : Engine} (hr : e.Reaches e') :
    ∃ past', Sound e₀ e' past' := by
  obtain ⟨turns, rfl⟩ := hr
  exact ⟨_, h.run turns⟩

/-- A batch holds an id once. -/
theorem Sound.nodup_pull (h : Sound e₀ e past) (p : Priority) : (e.pull p).2.Nodup := by
  rw [List.nodup_iff_count]
  intro id
  obtain ⟨v, hat, -⟩ := h.life id
  -- What is taken and what stays make up the lane, and the lane holds an id once at most.
  have hcount := count_pull e.lanes p p (e.policy.batchSize p) id
  have hlane : Handle.laneCount v.handle p ≤ 1 := by
    unfold Handle.laneCount
    split
    · split <;> decide
    · decide
  rw [if_pos rfl, hat.lanes p] at hcount
  have hle : (e.lanes.pull p (e.policy.batchSize p)).2.count id ≤ 1 := by omega
  exact hle

/-- The ids of a batch are pulled. -/
theorem Sound.pulled_of_pull (h : Sound e₀ e past) (p : Priority) {id : String}
    (hid : id ∈ (e.pull p).2) : (e.pull p).1.stage? id = some .pulled := by
  obtain ⟨v, hat, -⟩ := h.life id
  have hlane : id ∈ e.lanes.get p := List.mem_of_mem_take hid
  -- An id that waits in a lane has no other handle, so that the pull gives it its only flight.
  have hnone : e.flightsOf id = [] := by
    rw [hat.flights, hat.handle_of_mem_lane hlane]
    rfl
  rw [stage?_eq_head?, flightsOf_pull, hnone, List.nil_append]
  obtain ⟨n, hn⟩ := Nat.exists_eq_succ_of_ne_zero (Nat.ne_of_gt (List.count_pos_iff.mpr hid))
  rw [hn]
  rfl

/-- The attempt at a message leaves the others as they are. -/
theorem Sound.attempt_agrees (h : Sound e₀ e past) {j id : String} {m : Message}
    {attemptedAt : Instant} (hstage : e.stage? j = some (.claimed m attemptedAt)) (now : Instant)
    (hid : id ≠ j) : e.Agrees (e.attempt m attemptedAt now).1 id := by
  obtain ⟨hat, rfl, hs, hr⟩ := h.claimed hstage
  rcases e.attempt_spec hat.message hs hr attemptedAt now with
    ⟨call, e₁, -, halike, -, heq⟩ |
    ⟨spec, content, rendered, m', t, e₁, e₂, -, -, halike, -, hrecorded, heq⟩
  · rw [heq]
    exact (halike.agrees id).trans (e₁.moveFlight_agrees _ hid)
  · rw [heq]
    exact hrecorded.land_agrees halike hid

/-- The end of a call leaves the other messages as they are. -/
theorem Sound.complete_agrees (h : Sound e₀ e past) {j id : String} (report : Report)
    (now : Instant) (hid : id ≠ j) : e.Agrees (e.complete j report now) id := by
  cases hcall : e.callOf? j with
  | none =>
    -- Nothing is under way: the end of a call that was not made does nothing.
    have hstay : e.complete j report now = e := by
      unfold complete
      rw [hcall]
    rw [hstay]
    exact .refl e id
  | some call =>
    obtain ⟨m, hat, rfl, hs, hc, hr⟩ := h.calling hcall
    obtain ⟨spec, m', t, e₁, -, hrecorded, heq⟩ :=
      e.complete_spec hat.message hs hr hcall hc report now
    rw [heq]
    exact hrecorded.land_agrees (.refl e) hid

/-- To take up a pulled id leaves the others as they are. -/
theorem Sound.takeUp_agrees (h : Sound e₀ e past) {j id : String}
    (hstage : e.stage? j = some .pulled) (now : Instant) (hid : id ≠ j) :
    e.Agrees (e.takeUp j now).1 id := by
  -- The claim is a turn of its own, so that the engine is sound again before the attempt.
  have hturn : e.turn now (.claim j) = e.claim j now := by simp only [turn, hstage]
  have hclaimed := h.moves (claim_moves h now j)
  rw [hturn] at hclaimed
  have hagrees := e.claim_agrees now hid
  unfold takeUp
  generalize e.claim j now = e₁ at hclaimed hagrees
  simp only
  split
  · next m attemptedAt hs => exact hagrees.trans (hclaimed.attempt_agrees hs now hid)
  · exact hagrees

/-- A turn that works on a message leaves the others as they are. -/
theorem Sound.turn_agrees (h : Sound e₀ e past) (now : Instant) {t : Turn} {j id : String}
    (ht : t.worksOn? = some j) (hid : id ≠ j) : e.Agrees (e.turn now t) id := by
  cases t with
  | claim i =>
    obtain rfl := Option.some.inj ht
    simp only [turn]
    split
    · exact e.claim_agrees now hid
    · exact .refl e id
  | attempt i =>
    obtain rfl := Option.some.inj ht
    simp only [turn]
    split
    · next hstage => exact h.attempt_agrees hstage now hid
    · exact .refl e id
  | complete i report =>
    obtain rfl := Option.some.inj ht
    exact h.complete_agrees report now hid
  | fire timer =>
    obtain rfl := Option.some.inj ht
    simp only [turn]
    split
    · exact e.fire_agrees timer hid
    · exact .refl e id
  | _ => simp [Turn.worksOn?] at ht

end Engine

end Klaxon
