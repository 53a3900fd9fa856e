import Klaxon.Proofs.Dispatch.Batches
import Klaxon.Proofs.Dispatch.Frame
import Klaxon.Proofs.Dispatch.Remaining

/-!
# Lanes are emptied

A lane is emptied by taking batches from it until one is empty. What happens between two batches is
up to the deliverers, the timers and other drains, and ids may come back into the lane meanwhile.
But each id that is taken is nearer to its end than before, so that there is an empty batch at last
(`Sound.exists_empty_batch`), as long as nothing new is asked for.

If nothing is cancelled and no timer fires either, then no id comes back. A message that stands in a
lane then is tried once when its id is not on the way to an attempt any more (`Sound.run_once`).
-/

namespace Klaxon

namespace Engine

/-! ## All ids -/

/-- How far an id is from where nothing brings it on any more. -/
def stepsLeft (e : Engine) (id : String) : Nat :=
  6 * ((e.message? id).map e.attemptsLeft).getD 0 + 4 * e.laneHandles id + 5 * e.timerHandles id +
    ((e.flightsOf id).map fun f => Handle.stepsLeft (some (.flight f.stage))).sum

/-- The ids that an engine knows of. -/
def ids (e : Engine) : List String :=
  e.messages.map Message.id ++ Priority.all.flatMap e.lanes.get ++ e.timers.map Timer.messageId ++
    e.flights.map Flight.messageId

/-- How far some ids together are from there. -/
def stepsLeftOf (e : Engine) (ids : List String) : Nat := (ids.map e.stepsLeft).sum

/-- How far all ids together are. -/
def allStepsLeft (e : Engine) : Nat := e.stepsLeftOf e.ids

variable {e₀ e : Engine} {past : List Happening} {turns : List (Instant × Turn)}

/-- How far an id is from its end is seen from its position. -/
theorem Sound.stepsLeft_at (h : Sound e₀ e past) {id : String} {v : Position} (hat : e.At id v) :
    e.stepsLeft id = v.stepsLeft e₀ := by
  -- An id stands in one place at most, so that only the weight of its own handle is left of the
  -- sum.
  have hhandle : 4 * e.laneHandles id + 5 * e.timerHandles id +
      ((e.flightsOf id).map fun f => Handle.stepsLeft (some (.flight f.stage))).sum =
        Handle.stepsLeft v.handle := by
    rw [hat.laneHandles_eq, hat.timerHandles_eq, hat.flights]
    rcases v.handle with _ | _ | _ | _
    · rfl
    · rfl
    · rfl
    · exact (Nat.zero_add _).trans (Nat.add_zero _)
  unfold stepsLeft Position.stepsLeft
  rw [h.attemptsLeft_at hat]
  omega

/-- An id that an engine does not know of is nowhere. -/
theorem at_of_not_mem_ids {id : String} (h : id ∉ e.ids) : e.At id ⟨none, none⟩ := by
  unfold ids at h
  simp only [List.mem_append, List.mem_map, List.mem_flatMap, not_or, not_exists, not_and] at h
  obtain ⟨⟨⟨hmessages, hlanes⟩, htimers⟩, hflights⟩ := h
  constructor
  · unfold message?
    rw [List.find?_eq_none]
    intro m hm hid
    exact hmessages m hm (beq_iff_eq.mp hid)
  · intro p
    exact List.count_eq_zero.mpr (hlanes p p.mem_all)
  · apply List.filter_eq_nil_iff.mpr
    intro t ht hid
    exact htimers t ht (beq_iff_eq.mp hid)
  · apply List.filter_eq_nil_iff.mpr
    intro f hf hid
    exact hflights f hf (beq_iff_eq.mp hid)

/-- All ids that are somewhere are among some. -/
def Knows (ids : List String) (e : Engine) : Prop := ∀ id, id ∉ ids → e.At id ⟨none, none⟩

/-- An engine knows of its own ids. -/
theorem knows_ids (e : Engine) : Knows e.ids e := fun _ hid => at_of_not_mem_ids hid

/-- A turn that is no request brings no id up. -/
theorem Knows.turn {ids : List String} (h : Knows ids e) (hsound : Sound e₀ e past) (now : Instant)
    {t : Turn} (ht : t.isRequest = false) : Knows ids (e.turn now t) := by
  intro id hid
  obtain ⟨v', hat', hstep⟩ :=
    (turn_moves hsound now ht).step id _ (h id hid) (Position.fits_nowhere e₀ id)
  obtain ⟨rfl, -⟩ := hstep.of_nowhere
  exact hat'

/-- Nor does a run in which nothing is asked for. -/
theorem Knows.run {ids : List String} (h : Knows ids e) (hsound : Sound e₀ e past)
    (hturns : IsUnasked turns) : Knows ids (e.run turns) := by
  induction turns generalizing e past with
  | nil => exact h
  | cons t rest ih =>
    obtain ⟨hfirst, hrest⟩ := List.forall_mem_cons.mp hturns
    exact ih (h.turn hsound t.1 hfirst) (turn_sound hsound t.1 t.2) hrest

/-- No id gets farther from its end by a turn that is no request, and one whose handle changes gets
nearer to it. -/
theorem Sound.stepsLeft_turn (h : Sound e₀ e past) (hp : e₀.IsModest) (now : Instant) {t : Turn}
    (ht : t.isRequest = false) (id : String) :
    (e.turn now t).stepsLeft id ≤ e.stepsLeft id ∧
      ∀ v v', e.At id v → (e.turn now t).At id v' → v'.handle ≠ v.handle →
        (e.turn now t).stepsLeft id < e.stepsLeft id := by
  obtain ⟨v, hat, -⟩ := h.life id
  obtain ⟨v', hat', hspends⟩ := h.turn_spends hp now ht hat
  rw [h.stepsLeft_at hat, (turn_sound h now t).stepsLeft_at hat']
  refine ⟨hspends.steps, fun w w' hw hw' hne => ?_⟩
  obtain rfl := hat.unique hw
  obtain rfl := hat'.unique hw'
  exact hspends.handle hne

/-- So all of them together get no farther from theirs. -/
theorem Sound.stepsLeftOf_turn_le (h : Sound e₀ e past) (hp : e₀.IsModest) (ids : List String)
    (now : Instant) {t : Turn} (ht : t.isRequest = false) :
    (e.turn now t).stepsLeftOf ids ≤ e.stepsLeftOf ids :=
  List.sum_le_sum fun id _ => (h.stepsLeft_turn hp now ht id).1

/-- Nor do they in a run in which nothing is asked for. -/
theorem Sound.stepsLeftOf_run_le (h : Sound e₀ e past) (hp : e₀.IsModest) (ids : List String)
    (hturns : IsUnasked turns) : (e.run turns).stepsLeftOf ids ≤ e.stepsLeftOf ids := by
  induction turns generalizing e past with
  | nil => exact Nat.le_refl _
  | cons t rest ih =>
    obtain ⟨hfirst, hrest⟩ := List.forall_mem_cons.mp hturns
    have hturn := h.stepsLeftOf_turn_le hp ids t.1 hfirst
    exact Nat.le_trans (ih (turn_sound h t.1 t.2) hrest) hturn

/-- Where the handle of an id changes, all together get nearer to their ends. -/
theorem Sound.stepsLeftOf_turn_lt (h : Sound e₀ e past) (hp : e₀.IsModest) {ids : List String}
    (hknows : Knows ids e) (now : Instant) {t : Turn} (ht : t.isRequest = false) {id : String}
    {v v' : Position} (hat : e.At id v) (hat' : (e.turn now t).At id v')
    (hne : v'.handle ≠ v.handle) :
    (e.turn now t).stepsLeftOf ids < e.stepsLeftOf ids := by
  -- An id that is not among them stays nowhere, so that its handle does not change.
  have hmem : id ∈ ids := by
    by_contra hid
    obtain rfl := hat.unique (hknows id hid)
    obtain rfl := hat'.unique (hknows.turn h now ht id hid)
    exact hne rfl
  refine List.sum_lt_sum _ _ (fun j _ => (h.stepsLeft_turn hp now ht j).1) ⟨id, hmem, ?_⟩
  exact (h.stepsLeft_turn hp now ht id).2 v v' hat hat' hne

/-! ## Batch after batch -/

/-- A batch that is not empty brings its ids nearer to their ends. -/
theorem Sound.stepsLeftOf_pull_lt (h : Sound e₀ e past) (hp : e₀.IsModest) {ids : List String}
    (hknows : Knows ids e) {p : Priority} (hne : (e.pull p).2 ≠ []) :
    (e.pull p).1.stepsLeftOf ids < e.stepsLeftOf ids := by
  obtain ⟨id, hid⟩ := List.exists_mem_of_ne_nil _ hne
  obtain ⟨v, hat, -⟩ := h.life id
  obtain ⟨v', hat', -⟩ := (turn_sound h ⟨0, false⟩ (.pull p)).life id
  have hlane : v.handle = some (.lane p) := hat.handle_of_mem_lane (List.mem_of_mem_take hid)
  have hpulled : v'.handle = some (.flight .pulled) :=
    hat'.handle_of_stage? (h.pulled_of_pull p hid)
  refine h.stepsLeftOf_turn_lt hp hknows ⟨0, false⟩ (t := .pull p) rfl hat hat' ?_
  rw [hlane, hpulled]
  simp

/-- The engine behind some batches from a lane, where other turns come behind each of them. -/
def rounds (e : Engine) (p : Priority) (others : Nat → List (Instant × Turn)) : Nat → Engine
  | 0 => e
  | n + 1 => ((e.rounds p others n).pull p).1.run (others n)

/-- Whatever comes behind the batches, as long as nothing is asked for, there is an empty one
before long. -/
theorem Sound.exists_empty_batch (h : Sound e₀ e past) (hp : e₀.IsModest) (p : Priority)
    {others : Nat → List (Instant × Turn)} (hothers : ∀ n, IsUnasked (others n)) :
    ∃ n ≤ e.allStepsLeft, ((e.rounds p others n).pull p).2 = [] := by
  -- While there is none, each batch takes a step from what is left.
  by_contra hnone
  have hfull : ∀ n ≤ e.allStepsLeft, ((e.rounds p others n).pull p).2 ≠ [] :=
    fun n hn hempty => hnone ⟨n, hn, hempty⟩
  -- The induction carries the bound: what is left and the number of batches stay below the start.
  have hleft : ∀ n ≤ e.allStepsLeft + 1, ∃ past', Sound e₀ (e.rounds p others n) past' ∧
      Knows e.ids (e.rounds p others n) ∧
      (e.rounds p others n).stepsLeftOf e.ids + n ≤ e.allStepsLeft := by
    intro n
    induction n with
    | zero => exact fun _ => ⟨past, h, e.knows_ids, Nat.le_refl _⟩
    | succ n ih =>
      intro hn
      obtain ⟨past', hsound, hknows, hle⟩ := ih (by omega)
      have hpulled : Sound e₀ ((e.rounds p others n).pull p).1 (past' ++ []) :=
        turn_sound hsound ⟨0, false⟩ (.pull p)
      have hknows' : Knows e.ids ((e.rounds p others n).pull p).1 :=
        hknows.turn hsound ⟨0, false⟩ (t := .pull p) rfl
      have hlt := hsound.stepsLeftOf_pull_lt hp hknows (hfull n (by omega))
      have hrun := hpulled.stepsLeftOf_run_le hp e.ids (hothers n)
      refine ⟨_, hpulled.run (others n), hknows'.run hpulled (hothers n), ?_⟩
      simp only [rounds]
      omega
  obtain ⟨-, -, -, hle⟩ := hleft (e.allStepsLeft + 1) (Nat.le_refl _)
  omega

end Engine

/-! ## While nothing is asked for and no timer fires -/

/-- A turn that neither makes a message nor cancels one, and at which no timer fires. -/
def Turn.isQuiet : Turn → Bool
  | .cancel _ | .fire _ => false
  | t => !t.isRequest

/-- Such turns only. -/
def IsQuiet (turns : List (Instant × Turn)) : Prop := ∀ t ∈ turns, t.2.isQuiet = true

/-- No quiet turn is a request. -/
theorem Turn.not_isRequest_of_isQuiet {t : Turn} (h : t.isQuiet = true) : t.isRequest = false := by
  cases t <;> first | rfl | simp [Turn.isQuiet, Turn.isRequest] at h

/-- Whether a handle is on the way to an attempt, from its lane on. -/
def Handle.isAhead : Option Handle → Bool
  | some (.lane _) | some (.flight .pulled) | some (.flight (.claimed ..)) => true
  | _ => false

/-- A message that is not over is on the way to an attempt. -/
structure Position.IsAhead (v : Position) : Prop where
  message : ∃ m, v.message = some m ∧ m.status.isTerminal = false
  handle : Handle.isAhead v.handle = true

/-- A message is on its way to an attempt still, and nothing was seen of an attempt, or it has been
tried once. -/
def Position.IsOnce (v : Position) (hs : List Happening) : Prop :=
  (v.IsAhead ∧ hs.countP Happening.isBegun = 0) ∨
    (Handle.isAhead v.handle = false ∧ hs.countP Happening.isBegun = 1)

variable {e₀ : Engine} {id : String} {now : Instant} {hs past : List Happening} {v v' : Position}

/-- Where a message that is on its way to an attempt is neither cancelled nor left aside, it goes on
to it or is tried. -/
theorem Step.isOnce (h : Step e₀ id now v hs v') (hv : v.Fits e₀ id) (hahead : v.IsAhead)
    (hcancel : ∀ m t, .cancelled m t ∉ hs) : v'.IsOnce hs := by
  obtain ⟨⟨m, hm, hlive⟩, hhandle⟩ := hahead
  cases h with
  -- The handle moves forward only, and the attempt is the last it does before it is behind.
  | stay => exact .inl ⟨⟨⟨m, hm, hlive⟩, hhandle⟩, rfl⟩
  | cancelled => exact absurd (List.mem_singleton_self _) (hcancel _ _)
  | forgotten hover =>
    obtain rfl := Option.some.inj hm
    rw [hover] at hlive
    simp at hlive
  | pulled => exact .inl ⟨⟨⟨m, hm, hlive⟩, rfl⟩, rfl⟩
  | skipped hskip =>
    -- A pulled message that is not over waits, so that it is not skipped.
    obtain rfl : _ = some m := hm
    cases hv.shape with
    | queued hq => exact absurd hq (hskip m rfl)
    | cancelled hc => simp [hc, Status.isTerminal] at hlive
  | claimed => exact .inl ⟨⟨⟨_, rfl, rfl⟩, rfl⟩, rfl⟩
  | called => exact .inr ⟨rfl, rfl⟩
  | @refused _ _ _ _ _ _ t => cases t <;> exact .inr ⟨rfl, rfl⟩
  | completed => simp [Handle.isAhead] at hhandle
  | fired => simp [Handle.isAhead] at hhandle
  | dropped => simp [Handle.isAhead] at hhandle

/-- What is not on its way to an attempt does not get there without its timer. -/
theorem Step.not_isAhead (h : Step e₀ id now v hs v') (hbehind : Handle.isAhead v.handle = false)
    (hlane : ∀ p, v'.handle = some (.lane p) → v.handle = some (.lane p)) :
    Handle.isAhead v'.handle = false ∧ hs.countP Happening.isBegun = 0 := by
  cases h with
  | stay => exact ⟨hbehind, rfl⟩
  | cancelled => exact ⟨hbehind, rfl⟩
  | forgotten => exact ⟨hbehind, rfl⟩
  | pulled => simp [Handle.isAhead] at hbehind
  | skipped => simp [Handle.isAhead] at hbehind
  | claimed => simp [Handle.isAhead] at hbehind
  | called => simp [Handle.isAhead] at hbehind
  | refused => simp [Handle.isAhead] at hbehind
  | @completed _ _ _ _ _ t => cases t <;> exact ⟨rfl, rfl⟩
  | @fired _ t => exact absurd (hlane t.priority rfl) (by simp)
  | dropped => exact ⟨rfl, rfl⟩

namespace Engine

variable {e : Engine} {turns : List (Instant × Turn)}

/-- Nothing is seen of a cancellation in a quiet turn. -/
theorem not_cancelled_of_isQuiet (e : Engine) (now : Instant) {t : Turn} (ht : t.isQuiet = true)
    (m : Message) (ended : Instant) : .cancelled m ended ∉ e.happenings now t := by
  have hrecorded (after : Engine) (id : String) : .cancelled m ended ∉ after.recorded id now := by
    unfold recorded
    simp
  intro hmem
  cases t with
  | attempt id =>
    simp only [happenings] at hmem
    split at hmem
    · simp only [List.mem_cons, reduceCtorEq, false_or] at hmem
      split at hmem
      · simp at hmem
      · exact hrecorded _ id hmem
    · simp at hmem
  | complete id report =>
    simp only [happenings] at hmem
    split at hmem
    · simp only [List.mem_cons, reduceCtorEq, false_or] at hmem
      exact hrecorded _ id hmem
    · simp at hmem
  | offer | holdBack | sendCustom | sendWebhook | cancel | fire =>
    simp [Turn.isQuiet, Turn.isRequest] at ht
  | _ => simp [happenings] at hmem

/-- A quiet turn puts nothing into a lane. -/
theorem lanes_turn_sublist (e : Engine) (now : Instant) {t : Turn} (ht : t.isQuiet = true)
    (p : Priority) : ((e.turn now t).lanes.get p).Sublist (e.lanes.get p) := by
  have hsame {e' : Engine} (h : e'.lanes = e.lanes) :
      (e'.lanes.get p).Sublist (e.lanes.get p) := by rw [h]
  cases t with
  | pull q =>
    have hpull := Lanes.get_pull e.lanes q p (e.policy.batchSize q)
    simp only [turn, pull]
    rw [hpull]
    split
    · exact List.drop_sublist _ _
    · exact List.Sublist.refl _
  | claim id =>
    simp only [turn]
    split
    · exact hsame (e.undisturbed_claim id now).lanes
    · exact hsame rfl
  | attempt id =>
    simp only [turn]
    split
    · next m attemptedAt _ => exact hsame (e.undisturbed_attempt m attemptedAt now).lanes
    · exact hsame rfl
  | complete id report => exact hsame (e.undisturbed_complete id report now).lanes
  | offer | holdBack | sendCustom | sendWebhook | cancel | fire =>
    simp [Turn.isQuiet, Turn.isRequest] at ht
  | _ => exact hsame rfl

/-- A quiet run puts nothing into a lane. -/
theorem lanes_run_sublist (e : Engine) (hturns : IsQuiet turns) (p : Priority) :
    ((e.run turns).lanes.get p).Sublist (e.lanes.get p) := by
  induction turns generalizing e with
  | nil => exact List.Sublist.refl _
  | cons t rest ih =>
    obtain ⟨hfirst, hrest⟩ := List.forall_mem_cons.mp hturns
    exact (ih (e.turn t.1 t.2) hrest).trans (e.lanes_turn_sublist t.1 hfirst p)

/-- A message that is on its way to an attempt goes on to it in a quiet run, and is tried once. -/
theorem Sound.run_once (h : Sound e₀ e past) (hturns : IsQuiet turns) (hat : e.At id v)
    (hv : v.IsOnce hs) :
    ∃ v', (e.run turns).At id v' ∧ v'.IsOnce (hs ++ Happening.about id (e.history turns)) := by
  induction turns generalizing e past v hs with
  | nil =>
    rw [history, Happening.about_of_forall_eq (by simp), List.append_nil]
    exact ⟨v, hat, hv⟩
  | cons t rest ih =>
    obtain ⟨hquiet, hrest⟩ := List.forall_mem_cons.mp hturns
    obtain ⟨x, hx, hlife⟩ := h.life id
    obtain rfl := hat.unique hx
    obtain ⟨v₁, hat₁, hstep⟩ :=
      (turn_moves h t.1 (Turn.not_isRequest_of_isQuiet hquiet)).step id v hat hlife.fits
    -- One turn keeps the alternative, and the rest of the run goes on from there.
    have honce : v₁.IsOnce (hs ++ Happening.about id (e.happenings t.1 t.2)) := by
      unfold Position.IsOnce
      rw [List.countP_append]
      rcases hv with ⟨hahead, hnone⟩ | ⟨hbehind, hone⟩
      · rw [hnone, Nat.zero_add]
        exact hstep.isOnce hlife.fits hahead fun m ended hmem =>
          e.not_cancelled_of_isQuiet t.1 hquiet m ended (List.mem_filter.mp hmem).1
      · -- Its timer does not fire, so that its id does not come back into a lane.
        have hlane : ∀ p, v₁.handle = some (.lane p) → v.handle = some (.lane p) := by
          intro p hp
          have hcount := hat₁.lanes p
          rw [hp] at hcount
          have hmem : id ∈ (e.turn t.1 t.2).lanes.get p := by
            rw [← List.count_pos_iff, hcount]
            simp [Handle.laneCount]
          exact hat.handle_of_mem_lane ((e.lanes_turn_sublist t.1 hquiet p).mem hmem)
        obtain ⟨hbehind', hnone⟩ := hstep.not_isAhead hbehind hlane
        exact .inr ⟨hbehind', by rw [hone, hnone]⟩
    have hrun := ih (turn_sound h t.1 t.2) hrest hat₁ honce
    simp only [history, Happening.about_append, Engine.run]
    rw [← List.append_assoc]
    exact hrun

/-- A message that waited in a lane was tried once when a quiet run has brought its id out of the
lane, and on beyond its claim. -/
theorem Sound.countP_isBegun_eq_one (h : Sound e₀ e past) (hturns : IsQuiet turns) {m : Message}
    {p : Priority} (hm : m ∈ e.messages) (hs : m.status = .queued) (hp : m.id ∈ e.lanes.get p)
    (hlane : m.id ∉ (e.run turns).lanes.get p)
    (hstage : ∀ s, (e.run turns).stage? m.id = some s → ∃ call, s = .calling call) :
    (Happening.about m.id (e.history turns)).countP Happening.isBegun = 1 := by
  obtain ⟨x, hat, hidle, hleads⟩ := h.handle_of_queued hm hs
  have hx : some x = some (.lane p) := hat.handle_of_mem_lane hp
  have hahead : Position.IsAhead ⟨some m, some x⟩ := by
    constructor
    · exact ⟨m, rfl, by rw [hs]; rfl⟩
    · rw [hx]
      rfl
  have hwaits : Position.IsOnce ⟨some m, some x⟩ [] := .inl ⟨hahead, rfl⟩
  obtain ⟨v', hat', honce⟩ := h.run_once hturns hat hwaits
  rcases honce with ⟨⟨-, hhandle⟩, -⟩ | ⟨-, hone⟩
  · -- It cannot be on its way still, neither in this lane nor in another nor behind it.
    exfalso
    rcases hv' : v'.handle with _ | q | t | stage
    · simp [hv', Handle.isAhead] at hhandle
    · have hcount := hat'.lanes q
      rw [hv'] at hcount
      have hmem : m.id ∈ (e.run turns).lanes.get q := by
        rw [← List.count_pos_iff, hcount]
        simp [Handle.laneCount]
      have hbefore := hat.handle_of_mem_lane ((e.lanes_run_sublist hturns q).mem hmem)
      obtain rfl : q = p := by
        have hboth := hbefore.symm.trans hx
        simpa using hboth
      exact hlane hmem
    · simp [hv', Handle.isAhead] at hhandle
    · have hfound := hat'.stage?
      rw [hv'] at hfound
      obtain ⟨call, rfl⟩ := hstage stage hfound
      simp [hv', Handle.isAhead] at hhandle
  · exact hone

end Engine

end Klaxon
