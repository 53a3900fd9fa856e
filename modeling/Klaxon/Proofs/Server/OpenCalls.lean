import Klaxon.Proofs.Server.Trace
import Klaxon.Proofs.Server.Sweep

/-!
# The calls that a batch leaves open

When a server takes up an id, the attempt is over at once, or its call stays open under a number of
its own (`begin_cases`). So each id of a batch is over or has an open call with one of the numbers
that the batch gave (`handsOver_beginAll`), and this stays so until its call ends: a call that is
under way goes on or ends, whatever turn the engine takes (`Sound.isCalling_turn`).
-/

namespace Klaxon

/-- Of the steps of a message whose call is under way, the end of the call alone changes the handle,
which is gone then or a timer. -/
theorem Step.handle_of_calling {e₀ : Engine} {id : String} {now : Instant} {hs : List Happening}
    {v v' : Position} {call : Call} (h : Step e₀ id now v hs v')
    (hv : v.handle = some (.flight (.calling call))) :
    v'.handle = some (.flight (.calling call)) ∨ ∃ t : Option Timer, v'.handle = t.map .timer := by
  cases h with
  | stay => exact .inl hv
  | cancelled => exact .inl hv
  | forgotten => exact .inl hv
  | @completed _ _ _ _ _ t => exact .inr ⟨t, rfl⟩
  | _ => simp at hv

namespace Engine

variable {c e : Engine} {past : List Happening} {id : String}

/-- The call of an id is under way. -/
def IsCalling (e : Engine) (id : String) : Prop := ∃ call, e.stage? id = some (.calling call)

/-- Where an id is at the same stage, its call is under way as before. -/
theorem IsCalling.congr {e' : Engine} (h : e.IsCalling id) (hs : e'.stage? id = e.stage? id) :
    e'.IsCalling id := by
  obtain ⟨call, hcall⟩ := h
  exact ⟨call, hs.trans hcall⟩

/-- An id whose call is under way is handed over. -/
theorem IsCalling.isHanded (h : e.IsCalling id) : e.IsHanded id := by
  obtain ⟨call, hcall⟩ := h
  intro stage hstage
  exact ⟨call, Option.some.inj (hstage.symm.trans hcall)⟩

/-- A batch leaves the ids that are not in it at their stages. -/
theorem stage?_pull_of_not_mem {p : Priority} (h : id ∉ (e.pull p).2) :
    (e.pull p).1.stage? id = e.stage? id := by
  have hnone : (e.pull p).2.count id = 0 := List.count_eq_zero_of_not_mem h
  rw [stage?_eq_head?, stage?_eq_head?, flightsOf_pull, hnone, List.replicate_zero, List.append_nil]

/-- An id whose call is under way does not wait in a lane. -/
theorem Sound.not_mem_lane (h : c.Sound e past) (hid : e.IsCalling id) (p : Priority) :
    id ∉ e.lanes.get p := by
  intro hmem
  obtain ⟨call, hcall⟩ := hid
  obtain ⟨v, hat, -⟩ := h.life id
  have hlane := hat.handle_of_mem_lane hmem
  have hflight := hat.handle_of_stage? hcall
  rw [hlane] at hflight
  simp at hflight

/-- A call that is under way goes on in a turn, or ends. -/
theorem Sound.isCalling_turn (h : c.Sound e past) (hid : e.IsCalling id) (now : Instant)
    (t : Turn) : (e.turn now t).stage? id = none ∨ (e.turn now t).IsCalling id := by
  obtain ⟨call, hcall⟩ := hid
  obtain ⟨v, hat, hlife⟩ := h.life id
  have hhandle := hat.handle_of_stage? hcall
  cases ht : t.isRequest with
  | true =>
    rcases h.receives_at (e.turn_receives now ht) id with ⟨hagrees, -⟩ | ⟨_, hnowhere, -⟩
    · exact .inr ⟨call, hagrees.stage?.trans hcall⟩
    · -- A message that is made has a new id.
      obtain rfl := hat.unique hnowhere
      simp at hhandle
  | false =>
    obtain ⟨v', hat', hstep⟩ := (turn_moves h now ht).step id v hat hlife.fits
    have hstage := hat'.stage?
    rcases hstep.handle_of_calling hhandle with hsame | ⟨t, hover⟩
    · rw [hsame] at hstage
      exact .inr ⟨call, hstage⟩
    · rw [hover] at hstage
      cases t with
      | none => exact .inl hstage
      | some t => exact .inl hstage

/-- To record the answer to a call ends the flight. -/
theorem stage?_complete (hid : e.IsHanded id) (report : Report) (now : Instant) :
    (e.complete id report now).stage? id = none := by
  unfold complete
  split
  · next hnone =>
    -- Nothing that is handed over is in flight without a call.
    cases hs : e.stage? id with
    | none => rfl
    | some stage =>
      obtain ⟨call, rfl⟩ := hid stage hs
      simp [callOf?, hs] at hnone
  · split
    · exact stage?_land _ id
    · exact stage?_land _ id

/-- The attempt at a message is over, or it gives the call that is under way from then on. -/
theorem stage?_attempt {m : Message} (hs : (e.stage? m.id).isSome) (attemptedAt now : Instant) :
    (e.attempt m attemptedAt now).1.stage? m.id =
      (e.attempt m attemptedAt now).2.map .calling := by
  -- All ways out of an attempt land the flight, but for the one that gives a call.
  unfold attempt
  split
  · exact stage?_land _ m.id
  · next channel _ =>
    simp only
    split
    · exact stage?_land _ m.id
    · split
      · rw [stage?_moveFlight]
        have hcount : (e.countFirst m channel.id attemptedAt).flights = e.flights := by
          unfold countFirst
          split <;> rfl
        -- The counters of the channel change on the way, and no flight does.
        have hsame : ((e.countFirst m channel.id attemptedAt).modifyChannel channel.id
            fun c => (c.tryAcquire attemptedAt).1).stage? m.id = e.stage? m.id := by
          unfold stage?
          rw [← hcount]
          rfl
        rw [hsame]
        obtain ⟨stage, hstage⟩ := Option.isSome_iff_exists.mp hs
        rw [hstage]
        rfl
      · exact stage?_land _ m.id

/-- To take an id up ends its flight, or gives the call that is under way from then on. -/
theorem stage?_takeUp (e : Engine) (id : String) (now : Instant) :
    (e.takeUp id now).1.stage? id = (e.takeUp id now).2.map .calling := by
  unfold takeUp
  simp only
  cases hs : (e.claim id now).stage? id with
  | none => exact hs
  | some stage =>
    obtain ⟨m, rfl, rfl⟩ := e.stage?_claim id now hs
    have hsome : ((e.claim m.id now).stage? m.id).isSome := by rw [hs]; rfl
    exact stage?_attempt hsome now now

end Engine

namespace Server

variable {c : Engine} {past : List Happening} {s s' : Server} {id : String}

/-- The open calls have numbers of their own, and the next one is new. -/
structure NumbersCalls (s : Server) : Prop where
  nodup : (s.calls.map OpenCall.number).Nodup
  made : ∀ call ∈ s.calls, call.number ≤ s.callsMade

/-- A call is open for an id, with one of some numbers. -/
structure Awaits (s : Server) (numbers : List Nat) (id : String) : Prop where
  calling : s.engine.IsCalling id
  call : ∃ call ∈ s.calls, call.messageId = id ∧ call.number ∈ numbers

/-- The flight of an id is over, or a call is open for it with one of some numbers. -/
def Tracks (s : Server) (numbers : List Nat) (id : String) : Prop :=
  s.engine.stage? id = none ∨ s.Awaits numbers id

/-- While an id that is tracked is in flight, it is waited for. -/
theorem Tracks.awaits {numbers : List Nat} (h : s.Tracks numbers id)
    (hflight : (s.engine.stage? id).isSome) : s.Awaits numbers id := by
  rcases h with hover | hwaits
  · rw [hover] at hflight
    simp at hflight
  · exact hwaits

/-- An id is waited for as before where no call is taken away and it is at the same stage. -/
theorem Awaits.congr {numbers : List Nat} (h : s.Awaits numbers id)
    (hcalls : ∀ call ∈ s.calls, call ∈ s'.calls)
    (hstage : s'.engine.stage? id = s.engine.stage? id) : s'.Awaits numbers id := by
  obtain ⟨hcalling, call, hmem, hid, hnumber⟩ := h
  exact ⟨hcalling.congr hstage, call, hcalls call hmem, hid, hnumber⟩

/-- So it is where there are more numbers. -/
theorem Awaits.mono {numbers numbers' : List Nat} (h : s.Awaits numbers id)
    (hsub : ∀ n ∈ numbers, n ∈ numbers') : s.Awaits numbers' id := by
  obtain ⟨hcalling, call, hmem, hid, hnumber⟩ := h
  exact ⟨hcalling, call, hmem, hid, hsub _ hnumber⟩

/-- A call that is opened gets the next number. -/
theorem NumbersCalls.open (h : s.NumbersCalls) {call : OpenCall}
    (hnumber : call.number = s.callsMade + 1) (hcalls : s'.calls = s.calls ++ [call])
    (hmade : s'.callsMade = s.callsMade + 1) : s'.NumbersCalls := by
  constructor
  · rw [hcalls, List.map_append, List.nodup_append]
    refine ⟨h.nodup, List.nodup_singleton _, fun n hn m hm => ?_⟩
    obtain ⟨old, hold, rfl⟩ := List.mem_map.mp hn
    have hm' : m = call.number := List.mem_singleton.mp hm
    have hle := h.made old hold
    omega
  · intro other hother
    rw [hcalls] at hother
    rw [hmade]
    rcases List.mem_append.mp hother with hold | hnew
    · exact Nat.le_succ_of_le (h.made other hold)
    · rw [List.mem_singleton.mp hnew, hnumber]

/-- Calls that are closed leave the numbers of the others. -/
theorem NumbersCalls.filter (h : s.NumbersCalls) {p : OpenCall → Bool}
    (hcalls : s'.calls = s.calls.filter p) (hmade : s'.callsMade = s.callsMade) :
    s'.NumbersCalls := by
  constructor
  · rw [hcalls]
    exact h.nodup.sublist (List.filter_sublist.map _)
  · intro call hcall
    rw [hcalls] at hcall
    rw [hmade]
    exact h.made call (List.mem_of_mem_filter hcall)

/-- A call is known by its number. -/
theorem NumbersCalls.eq_of_number (h : s.NumbersCalls) {call other : OpenCall}
    (hcall : call ∈ s.calls) (hother : other ∈ s.calls) (heq : call.number = other.number) :
    call = other :=
  List.inj_on_of_nodup_map h.nodup hcall hother heq

/-! ## Batches -/

/-- Nothing is opened or closed by a hand-over itself. -/
theorem calls_handOver (s : Server) (call : Call) :
    (s.handOver call).1.calls = s.calls ∧ (s.handOver call).1.callsMade = s.callsMade := by
  unfold handOver
  split <;> exact ⟨rfl, rfl⟩

/-- An id that is taken up is over at once, or a call is opened for it. -/
theorem begin_cases (s : Server) (id : String) :
    ((s.begin id).2 = none ∧ (s.begin id).1.calls = s.calls ∧
      (s.begin id).1.callsMade = s.callsMade ∧ (s.begin id).1.engine.stage? id = none) ∨
    ∃ call : OpenCall, (s.begin id).2 = some call.number ∧
      (s.begin id).1.calls = s.calls ++ [call] ∧ (s.begin id).1.callsMade = s.callsMade + 1 ∧
      call.number = s.callsMade + 1 ∧ call.messageId = id ∧
      (s.begin id).1.engine.IsCalling id := by
  have hstage := s.engine.stage?_takeUp id s.now
  have hhanded := s.engine.isHanded_takeUp id s.now
  unfold Server.begin
  generalize s.engine.takeUp id s.now = taken at hstage hhanded
  obtain ⟨engine, call⟩ := taken
  cases call with
  | none => exact .inl ⟨rfl, rfl, rfl, hstage⟩
  | some call =>
    have hengine := engine_handOver { s with engine } call
    obtain ⟨hcalls, hmade⟩ := calls_handOver { s with engine } call
    simp only
    generalize Server.handOver { s with engine } call = handed at hengine hcalls hmade
    obtain ⟨s', reply⟩ := handed
    simp only at hengine hcalls hmade ⊢
    split
    · -- The reply came at once, and the attempt is recorded with it.
      left
      refine ⟨rfl, hcalls, hmade, ?_⟩
      show (s'.engine.complete id reply.report s'.now).stage? id = none
      rw [hengine]
      exact Engine.stage?_complete hhanded reply.report s'.now
    · -- The reply takes its time, and the call stays open.
      right
      have hnumber : s'.callsMade + 1 = s.callsMade + 1 := congrArg (· + 1) hmade
      refine ⟨⟨s'.callsMade + 1, id, s'.now.add (reply.delayMs * Time.millisecond),
        reply.report⟩, rfl, ?_, hnumber, hnumber, rfl, ?_⟩
      · show s'.calls ++ _ = s.calls ++ _
        rw [hcalls]
      · show s'.engine.IsCalling id
        rw [hengine]
        exact ⟨call, hstage⟩

/-- What a server has done with the ids of a batch when it took them up. -/
structure HandsOver (s : Server) (ids : List String) (s' : Server) (numbers : List Nat) :
    Prop where
  numbered : s.NumbersCalls → s'.NumbersCalls
  /-- No call is closed. -/
  calls : ∀ call ∈ s.calls, call ∈ s'.calls
  /-- Each id of the batch is over, or waited for. -/
  tracks : ∀ id ∈ ids, s'.Tracks numbers id
  others : ∀ id, id ∉ ids → s'.engine.stage? id = s.engine.stage? id

/-- To begin with an id opens its call, if it is not over at once. -/
theorem handsOver_begin (h : c.Sound s.engine past) (hp : s.engine.stage? id = some .pulled) :
    s.HandsOver [id] (s.begin id).1 (s.begin id).2.toList := by
  have hothers := (RunsFrom.begin (.refl s.engine : s.RunsFrom s.engine) h hp).2
  have hrest : ∀ j, j ∉ [id] → (s.begin id).1.engine.stage? j = s.engine.stage? j := by
    intro j hj
    exact hothers j fun he => hj (List.mem_singleton.mpr he)
  rcases s.begin_cases id with ⟨-, hcalls, hmade, hover⟩ |
    ⟨call, hnumbers, hcalls, hmade, hnumber, hid, hcalling⟩
  · refine ⟨fun hn => ?_, fun call hcall => hcalls ▸ hcall, fun j hj => ?_, hrest⟩
    · have hall : (s.begin id).1.calls = s.calls.filter fun _ => true := by
        rw [hcalls, List.filter_true]
      exact hn.filter hall hmade
    · obtain rfl := List.mem_singleton.mp hj
      exact .inl hover
  · refine ⟨fun hn => hn.open hnumber hcalls hmade, fun other hother => ?_, fun j hj => ?_,
      hrest⟩
    · rw [hcalls]
      exact List.mem_append_left _ hother
    · obtain rfl := List.mem_singleton.mp hj
      have hmem : call ∈ (s.begin j).1.calls := by
        rw [hcalls]
        exact List.mem_append_right _ (List.mem_singleton_self call)
      refine .inr ⟨hcalling, call, hmem, hid, ?_⟩
      rw [hnumbers]
      exact List.mem_singleton_self _

/-- What is done with one id and then with the others is done with all of them. -/
theorem HandsOver.cons {s₁ s₂ : Server} {ids : List String} {numbers numbers' : List Nat}
    (h : s.HandsOver [id] s₁ numbers) (hids : s₁.HandsOver ids s₂ numbers') (hid : id ∉ ids) :
    s.HandsOver (id :: ids) s₂ (numbers ++ numbers') := by
  constructor
  · exact fun hn => hids.numbered (h.numbered hn)
  · exact fun call hcall => hids.calls call (h.calls call hcall)
  · intro j hj
    rcases List.mem_cons.mp hj with rfl | hj
    · -- The first one stays where it is while the others are taken up.
      have hstay := hids.others j hid
      rcases h.tracks j (List.mem_singleton_self j) with hover | hwaits
      · exact .inl (hstay.trans hover)
      · exact .inr ((hwaits.congr hids.calls hstay).mono fun n => List.mem_append_left _)
    · exact (hids.tracks j hj).imp_right fun hwaits =>
        hwaits.mono fun n => List.mem_append_right _
  · intro j hj
    rw [List.mem_cons, not_or] at hj
    have hfirst : j ∉ [id] := fun hmem => hj.1 (List.mem_singleton.mp hmem)
    exact (hids.others j hj.2).trans (h.others j hfirst)

/-- Each id of a batch is over at once, or waited for. -/
theorem handsOver_beginAll (h : c.Sound s.engine past) {ids : List String} (hn : ids.Nodup)
    (hp : ∀ j ∈ ids, s.engine.stage? j = some .pulled) :
    s.HandsOver ids (s.beginAll ids).1 (s.beginAll ids).2 := by
  induction ids generalizing s past with
  | nil =>
    exact ⟨id, fun _ hcall => hcall, fun j hj => absurd hj List.not_mem_nil, fun _ _ => rfl⟩
  | cons j rest ih =>
    obtain ⟨hhead, hrest⟩ := List.nodup_cons.mp hn
    have hpulled := hp j List.mem_cons_self
    have hfirst := handsOver_begin h hpulled
    obtain ⟨past', hsound⟩ :=
      h.of_reaches (RunsFrom.begin (.refl s.engine : s.RunsFrom s.engine) h hpulled).1
    have hstill : ∀ i ∈ rest, (s.begin j).1.engine.stage? i = some .pulled := by
      intro i hi
      have hne : i ∉ [j] := fun hmem => hhead (List.mem_singleton.mp hmem ▸ hi)
      exact (hfirst.others i hne).trans (hp i (List.mem_cons_of_mem j hi))
    exact hfirst.cons (ih hsound hrest hstill) hhead

/-- A drain hands over the next batch of its first lane. -/
theorem handsOver_stepDrain (h : c.Sound s.engine past) {d : Drain} {lane : Priority}
    {rest : List Priority} (hd : d.lanes = lane :: rest) :
    Server.HandsOver { s with engine := (s.engine.pull lane).1 } (s.engine.pull lane).2
      (s.stepDrain d).1 (s.stepDrain d).2.calls := by
  have hsound := Engine.turn_sound h s.now (.pull lane)
  have hbatch := handsOver_beginAll (s := { s with engine := (s.engine.pull lane).1 }) hsound
    (h.nodup_pull lane) fun id hid => h.pulled_of_pull lane hid
  unfold stepDrain
  rw [hd]
  exact hbatch

/-! ## Until the answer comes -/

/-- An id is waited for until its flight is over, whatever turn the engine takes. -/
theorem Awaits.turn {numbers : List Nat} (h : s.Awaits numbers id)
    (hsound : c.Sound s.engine past) (t : Turn) :
    Server.Tracks { s with engine := s.engine.turn s.now t } numbers id := by
  obtain ⟨hcalling, hcall⟩ := h
  rcases hsound.isCalling_turn hcalling s.now t with hover | hcalling'
  · exact .inl hover
  · exact .inr ⟨hcalling', hcall⟩

/-- An answer ends the flight of its own id, and leaves the other calls open. -/
theorem Awaits.answer {numbers : List Nat} (h : s.Awaits numbers id)
    (hsound : c.Sound s.engine past) (hn : s.NumbersCalls) {answered : OpenCall}
    (hanswered : answered ∈ s.calls) : (s.move (.answer answered)).Tracks numbers id := by
  obtain ⟨hcalling, call, hcall, hid, hnumber⟩ := h
  -- Numbers tell the calls apart, so the answer is that of this call or leaves it open.
  by_cases heq : call.number = answered.number
  · left
    obtain rfl := hn.eq_of_number hcall hanswered heq
    subst hid
    exact Engine.stage?_complete hcalling.isHanded call.report s.now
  · have hstill : call ∈ (s.move (.answer answered)).calls := by
      refine List.mem_filter.mpr ⟨hcall, ?_⟩
      rw [bne_iff_ne]
      exact heq
    have hturn := hsound.isCalling_turn hcalling s.now
      (.complete answered.messageId answered.report)
    rcases hturn with hover | hcalling'
    · exact .inl hover
    · exact .inr ⟨hcalling', call, hstill, hid, hnumber⟩

/-- A batch leaves alone what is waited for. -/
theorem Awaits.stepDrain {numbers : List Nat} (h : s.Awaits numbers id)
    (hsound : c.Sound s.engine past) (d : Drain) : (s.stepDrain d).1.Awaits numbers id := by
  cases hd : d.lanes with
  | nil =>
    unfold Server.stepDrain
    rw [hd]
    exact h
  | cons lane rest =>
    have hbatch := handsOver_stepDrain hsound hd
    -- The batch comes from a lane, and an id with a call under way stands in none.
    have hout : id ∉ (s.engine.pull lane).2 := fun hmem =>
      hsound.not_mem_lane h.calling lane (List.mem_of_mem_take hmem)
    exact h.congr hbatch.calls
      ((hbatch.others id hout).trans (Engine.stage?_pull_of_not_mem hout))

/-- The open calls keep numbers of their own when a drain takes a batch. -/
theorem NumbersCalls.stepDrain (h : s.NumbersCalls) (hsound : c.Sound s.engine past)
    (d : Drain) : (s.stepDrain d).1.NumbersCalls := by
  cases hd : d.lanes with
  | nil =>
    unfold Server.stepDrain
    rw [hd]
    exact h
  | cons lane rest =>
    have hpulled : Server.NumbersCalls { s with engine := (s.engine.pull lane).1 } :=
      ⟨h.nodup, h.made⟩
    exact (handsOver_stepDrain hsound hd).numbered hpulled

end Server

end Klaxon
