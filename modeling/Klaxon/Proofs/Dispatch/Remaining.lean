import Mathlib.Algebra.Order.BigOperators.Group.List
import Mathlib.Algebra.Order.Group.Nat
import Klaxon.Proofs.Dispatch.Accounts
import Klaxon.Proofs.Dispatch.AttemptLog
import Klaxon.Proofs.Dispatch.Handles

/-!
# How much there is left to do

A message can be tried as often as its channel allows, and each attempt at it counts. So, if nothing
new is asked for, the attempts that are still to come are bounded by what is left of all messages
that are not over (`Engine.workLeft`), whatever order the turns come in: `Sound.countP_isBegun_le`
says so of the attempts that begin, and `Sound.countP_isRecord_le` of those that are recorded.

More than that, each turn that brings an id on takes it nearer to where nothing brings it on any
more. `Position.stepsLeft` is how far it is to there: an attempt that is retried puts its id back
behind a timer, but there is an attempt less to come then, and this weighs more than all the ways of
a handle together. A message that is cancelled has no attempts to come, so that only its handle
counts, which is used up as it stands. `Step.spends` is the account of one step, from which all this
follows.
-/

namespace Klaxon

namespace Happening

/-- An attempt begins. -/
def isBegun : Happening → Bool
  | .begun _ => true
  | _ => false

end Happening

/-- The attempts that a message can still take: as many as its channel allows, without those that
were made; none if it is over. -/
def Engine.attemptsLeft (e : Engine) (m : Message) : Nat :=
  if m.status.isTerminal then 0
  else ((e.spec? m.channelId).map fun spec =>
    spec.retryPolicy.maxRetries.toNat + 1 - m.attempts.length).getD 0

/-- The attempts that all messages together can still take. -/
def Engine.workLeft (e : Engine) : Nat := (e.messages.map e.attemptsLeft).sum

/-- Attempts at every channel can be numbered. -/
def Engine.IsModest (e : Engine) : Prop :=
  ∀ id spec, e.spec? id = some spec → spec.retryPolicy.maxRetries.toNat < 2 ^ 32 - 1

/-- Where every channel of a registry allows for few enough retries, an engine with this registry is
modest. -/
theorem Engine.isModest_of_registry {e : Engine}
    (h : ∀ c ∈ e.registry, c.spec.retryPolicy.maxRetries.toNat < 2 ^ 32 - 1) : e.IsModest := by
  intro id spec hspec
  obtain ⟨channel, hget, rfl⟩ := Option.map_eq_some_iff.mp hspec
  exact h channel (List.mem_of_find?_eq_some hget)

/-! ## What is left of an id -/

/-- How far a handle is from its end, by way of a lane, a batch, a claim and a call. -/
def Handle.stepsLeft : Option Handle → Nat
  | none => 0
  | some (.flight (.calling _)) => 1
  | some (.flight (.claimed ..)) => 2
  | some (.flight .pulled) => 3
  | some (.lane _) => 4
  | some (.timer _) => 5

namespace Position

variable (e₀ : Engine) (v : Position)

/-- The attempts that are still to be recorded. -/
def attemptsLeft : Nat := (v.message.map e₀.attemptsLeft).getD 0

/-- The attempts that are still to begin. Where a call is under way, one of those that are left
began. -/
def beginsLeft : Nat := v.attemptsLeft e₀ - Handle.calls v.handle

/-- How far an id is from where nothing brings it on any more. -/
def stepsLeft : Nat := 6 * v.attemptsLeft e₀ + Handle.stepsLeft v.handle

/-- A step takes what it does from what is left. -/
structure Spends (v : Position) (hs : List Happening) (v' : Position) : Prop where
  begun : hs.countP Happening.isBegun + v'.beginsLeft e₀ ≤ v.beginsLeft e₀
  recorded : hs.countP Happening.isRecord + v'.attemptsLeft e₀ ≤ v.attemptsLeft e₀
  steps : v'.stepsLeft e₀ ≤ v.stepsLeft e₀
  /-- The handle is not changed for nothing. -/
  handle : v'.handle ≠ v.handle → v'.stepsLeft e₀ < v.stepsLeft e₀

end Position

variable {e₀ : Engine} {id : String} {now : Instant} {past hs : List Happening} {v v' : Position}

/-- A status is no part of what is left, as long as the message is not over. -/
theorem attemptsLeft_withStatus (m : Message) {s : Status}
    (h : s.isTerminal = m.status.isTerminal) :
    e₀.attemptsLeft { m with status := s } = e₀.attemptsLeft m := by
  unfold Engine.attemptsLeft
  rw [h]

/-- Nothing is left of a message that is over. -/
theorem attemptsLeft_of_isTerminal {m : Message} (h : m.status.isTerminal = true) :
    e₀.attemptsLeft m = 0 := if_pos h

/-- What is left of a message that is not over. -/
theorem attemptsLeft_eq {m : Message} {spec : ChannelSpec} (h : m.status.isTerminal = false)
    (hspec : e₀.spec? m.channelId = some spec) :
    e₀.attemptsLeft m = spec.retryPolicy.maxRetries.toNat + 1 - m.attempts.length := by
  unfold Engine.attemptsLeft
  rw [h, hspec]
  rfl

/-- A message that is not over can be tried. -/
theorem Life.attemptsLeft_pos (h : Life e₀ id past v) (hp : e₀.IsModest) {m : Message}
    (hm : v.message = some m) (hs : m.status.isTerminal = false) : 0 < e₀.attemptsLeft m := by
  obtain ⟨spec, hspec⟩ := (h.fits.stored m hm).2.channel
  -- A message that is not over was retried each time, and each retry was allowed.
  have hcovers : spec.retryPolicy.Covers m.attempts := by
    refine ((h.logged (hp _ spec hspec) hm hspec).covers ?_).2
    cases hq : m.status <;> simp [hq, Status.isTerminal] at hs ⊢
  have hle := hcovers.length_le
  rw [attemptsLeft_eq hs hspec]
  omega

/-- The record of an attempt takes it from what is left of its message. -/
theorem Message.Settles.attemptsLeft_lt {spec : ChannelSpec} {attemptedAt : Instant}
    {report : Report} {m m' : Message} {content : Option RenderedContent} {t : Option Timer}
    (h : (Engine.withNewContent m content).Settles spec attemptedAt now report m' t)
    (hspec : e₀.spec? m.channelId = some spec) (hs : m.status = .sending)
    (hleft : 0 < e₀.attemptsLeft m) : e₀.attemptsLeft m' < e₀.attemptsLeft m := by
  have hlength := attempts_withNewContent m content
  have hsame := (m.sameOrigin_withNewContent content).trans h.sameOrigin
  obtain ⟨a, -, hattempts⟩ := h.attempts
  have hmade : m'.attempts.length = m.attempts.length + 1 := by
    rw [hattempts, hlength, List.length_append, List.length_singleton]
  have hbefore : e₀.attemptsLeft m =
      spec.retryPolicy.maxRetries.toNat + 1 - m.attempts.length :=
    attemptsLeft_eq (by rw [hs]; rfl) hspec
  cases hover : m'.status.isTerminal with
  | true =>
    rw [attemptsLeft_of_isTerminal hover]
    exact hleft
  | false =>
    have hspec' : e₀.spec? m'.channelId = some spec := by
      rw [hsame.channelId]
      exact hspec
    have hafter := attemptsLeft_eq hover hspec'
    rw [hafter, hmade]
    omega

/-- What stays takes nothing. -/
theorem Position.Spends.refl (v : Position) : Position.Spends e₀ v [] v where
  begun := Nat.le_of_eq (Nat.zero_add _)
  recorded := Nat.le_of_eq (Nat.zero_add _)
  steps := Nat.le_refl _
  handle hne := absurd rfl hne

/-- Where the message keeps what is left of it, only the handle counts. -/
theorem Position.spends_of_handle {m m' : Option Message} {h h' : Option Handle}
    (hm : (m'.map e₀.attemptsLeft).getD 0 = (m.map e₀.attemptsLeft).getD 0)
    (hc : Handle.calls h' = Handle.calls h) (hlt : Handle.stepsLeft h' < Handle.stepsLeft h) :
    Spends e₀ ⟨m, h⟩ [] ⟨m', h'⟩ := by
  -- The first two accounts are about attempts only, which stay as they are.
  have hattempts : attemptsLeft e₀ ⟨m', h'⟩ = attemptsLeft e₀ ⟨m, h⟩ := hm
  have hbegins : beginsLeft e₀ ⟨m', h'⟩ = beginsLeft e₀ ⟨m, h⟩ := by
    unfold beginsLeft
    rw [hattempts]
    exact congrArg _ hc
  have hsteps : stepsLeft e₀ ⟨m', h'⟩ < stepsLeft e₀ ⟨m, h⟩ := by
    unfold stepsLeft
    rw [hattempts]
    exact Nat.add_lt_add_left hlt _
  constructor
  · rw [hbegins]
    exact Nat.le_of_eq (Nat.zero_add _)
  · rw [hattempts]
    exact Nat.le_of_eq (Nat.zero_add _)
  · exact Nat.le_of_lt hsteps
  · exact fun _ => hsteps

/-- Where nothing is left of the message, its handle may stay as it is. -/
theorem Position.spends_of_over {m m' : Option Message} {h : Option Handle} {hs : List Happening}
    (hm : (m'.map e₀.attemptsLeft).getD 0 = 0) (hb : hs.countP Happening.isBegun = 0)
    (hr : hs.countP Happening.isRecord = 0) : Spends e₀ ⟨m, h⟩ hs ⟨m', h⟩ := by
  have hattempts : attemptsLeft e₀ ⟨m', h⟩ = 0 := hm
  constructor
  · unfold beginsLeft
    rw [hattempts, hb, Nat.zero_sub]
    exact Nat.zero_le _
  · rw [hattempts, hr]
    exact Nat.zero_le _
  · unfold stepsLeft
    rw [hattempts, Nat.mul_zero, Nat.zero_add]
    exact Nat.le_add_left _ _
  · exact fun hne => absurd rfl hne

/-- The record of an attempt takes the attempt from what is left, and whatever timer it sets is not
as far from its end. -/
theorem Message.Settles.spends {spec : ChannelSpec} {attemptedAt : Instant} {report : Report}
    {m m' : Message} {content : Option RenderedContent} {t : Option Timer} {stage : Stage}
    (h : (Engine.withNewContent m content).Settles spec attemptedAt now report m' t)
    (hspec : e₀.spec? m.channelId = some spec) (hsending : m.status = .sending)
    (hleft : 0 < e₀.attemptsLeft m) (hr : hs.countP Happening.isRecord = 1)
    (hb : hs.countP Happening.isBegun + Handle.calls (some (.flight stage)) = 1) :
    Position.Spends e₀ ⟨some m, some (.flight stage)⟩ hs ⟨some m', t.map .timer⟩ := by
  have hlt : e₀.attemptsLeft m' < e₀.attemptsLeft m := h.attemptsLeft_lt hspec hsending hleft
  have hbefore : Position.attemptsLeft e₀ ⟨some m, some (.flight stage)⟩ = e₀.attemptsLeft m := rfl
  have hafter : Position.attemptsLeft e₀ ⟨some m', t.map .timer⟩ = e₀.attemptsLeft m' := rfl
  have hstage : 0 < Handle.stepsLeft (some (.flight stage)) := by
    cases stage <;> exact Nat.zero_lt_succ _
  obtain ⟨htimer, hcalls⟩ :
      Handle.stepsLeft (t.map .timer) ≤ 5 ∧ Handle.calls (t.map .timer) = 0 := by
    cases t with
    | none => exact ⟨by decide, rfl⟩
    | some t => exact ⟨Nat.le_refl 5, rfl⟩
  -- One attempt less weighs six steps, and the timer that may be set is five away from the end.
  have hsteps : Position.stepsLeft e₀ ⟨some m', t.map .timer⟩ <
      Position.stepsLeft e₀ ⟨some m, some (.flight stage)⟩ := by
    unfold Position.stepsLeft
    rw [hbefore, hafter]
    simp only
    omega
  constructor
  · unfold Position.beginsLeft
    rw [hbefore, hafter]
    simp only [hcalls]
    omega
  · rw [hbefore, hafter, hr]
    omega
  · exact Nat.le_of_lt hsteps
  · exact fun _ => hsteps

/-- Every step takes what it does from what is left, as long as a message that is not over can be
tried. -/
theorem Step.spends (h : Step e₀ id now v hs v') (hv : v.Fits e₀ id)
    (hleft : ∀ m, v.message = some m → m.status.isTerminal = false → 0 < e₀.attemptsLeft m) :
    Position.Spends e₀ v hs v' := by
  -- A message whose flight went beyond the batch is being sent, so that it can be tried.
  have hsending {m : Message} {stage : Stage} (hm : v = ⟨some m, some (.flight stage)⟩)
      (hne : stage ≠ .pulled) : m.status = .sending ∧ 0 < e₀.attemptsLeft m := by
    subst hm
    have hstatus : m.status = .sending := hv.shape.sending hne
    exact ⟨hstatus, hleft m rfl (by rw [hstatus]; rfl)⟩
  cases h with
  | stay => exact .refl v
  | @cancelled m =>
    have hnone : e₀.attemptsLeft { m with status := .cancelled } = 0 :=
      attemptsLeft_of_isTerminal rfl
    exact Position.spends_of_over hnone rfl rfl
  | forgotten => exact Position.spends_of_over rfl rfl rfl
  | @pulled m p => exact Position.spends_of_handle rfl rfl (Nat.lt_succ_self 3)
  | skipped => exact Position.spends_of_handle rfl rfl (Nat.zero_lt_succ 2)
  | @claimed m hq =>
    have hsame : e₀.attemptsLeft { m with status := .sending } = e₀.attemptsLeft m :=
      attemptsLeft_withStatus m (by rw [hq]; rfl)
    exact Position.spends_of_handle hsame rfl (Nat.lt_succ_self 2)
  | @called m attemptedAt call =>
    -- One of the attempts that are left is under way from now on.
    obtain ⟨-, hpos⟩ := hsending rfl (by simp)
    have hsteps : Position.stepsLeft e₀ ⟨some m, some (.flight (.calling call))⟩ <
        Position.stepsLeft e₀ ⟨some m, some (.flight (.claimed m attemptedAt))⟩ :=
      Nat.lt_succ_self _
    constructor
    · exact Nat.le_of_eq (Nat.add_sub_cancel' hpos)
    · exact Nat.le_of_eq (Nat.zero_add _)
    · exact Nat.le_of_lt hsteps
    · exact fun _ => hsteps
  | refused hspec _ hset =>
    obtain ⟨hstatus, hpos⟩ := hsending rfl (by simp)
    exact hset.spends hspec hstatus hpos rfl rfl
  | completed hspec hset =>
    obtain ⟨hstatus, hpos⟩ := hsending rfl (by simp)
    exact hset.spends hspec hstatus hpos rfl rfl
  | @fired m t => exact Position.spends_of_handle rfl rfl (Nat.lt_succ_self 4)
  | dropped => exact Position.spends_of_handle rfl rfl (Nat.zero_lt_succ 4)

/-- What is taken by one step and then by another. -/
theorem Position.Spends.trans {v'' : Position} {hs' : List Happening}
    (h : Position.Spends e₀ v hs v') (h' : Position.Spends e₀ v' hs' v'') :
    Position.Spends e₀ v (hs ++ hs') v'' := by
  constructor
  · have hfirst := h.begun
    have hsecond := h'.begun
    rw [List.countP_append]
    omega
  · have hfirst := h.recorded
    have hsecond := h'.recorded
    rw [List.countP_append]
    omega
  · exact Nat.le_trans h'.steps h.steps
  · intro hne
    -- The handle is changed by one of the two, or by both.
    by_cases hsame : v'.handle = v.handle
    · exact Nat.lt_of_lt_of_le (h'.handle fun heq => hne (heq.trans hsame)) h.steps
    · exact Nat.lt_of_le_of_lt h'.steps (h.handle hsame)

/-! ## Runs without requests -/

/-- Nothing is asked for in a run. -/
def IsUnasked (turns : List (Instant × Turn)) : Prop := ∀ t ∈ turns, t.2.isRequest = false

namespace Engine

variable {e : Engine} {turns : List (Instant × Turn)}

/-- A turn that is no request takes what it does from what is left of each id. -/
theorem Sound.turn_spends (h : Sound e₀ e past) (hp : e₀.IsModest) (now : Instant) {t : Turn}
    (ht : t.isRequest = false) (hat : e.At id v) :
    ∃ v', (e.turn now t).At id v' ∧
      Position.Spends e₀ v (Happening.about id (e.happenings now t)) v' := by
  obtain ⟨x, hx, hlife⟩ := h.life id
  obtain rfl := hat.unique hx
  obtain ⟨v', hat', hstep⟩ := (turn_moves h now ht).step id v hat hlife.fits
  exact ⟨v', hat', hstep.spends hlife.fits fun m hm hs => hlife.attemptsLeft_pos hp hm hs⟩

/-- So does a run in which nothing is asked for. -/
theorem Sound.run_spends (h : Sound e₀ e past) (hp : e₀.IsModest) (hturns : IsUnasked turns)
    (hat : e.At id v) :
    ∃ v', (e.run turns).At id v' ∧
      Position.Spends e₀ v (Happening.about id (e.history turns)) v' := by
  induction turns generalizing e past v with
  | nil => exact ⟨v, hat, .refl v⟩
  | cons t rest ih =>
    obtain ⟨hfirst, hrest⟩ := List.forall_mem_cons.mp hturns
    obtain ⟨v₁, hat₁, hspends₁⟩ := h.turn_spends hp t.1 hfirst hat
    obtain ⟨v₂, hat₂, hspends₂⟩ := ih (turn_sound h t.1 t.2) hrest hat₁
    refine ⟨v₂, hat₂, ?_⟩
    simp only [history, Happening.about_append]
    exact hspends₁.trans hspends₂

/-- What is left of a stored message. -/
theorem Sound.attemptsLeft_at (h : Sound e₀ e past) (hat : e.At id v) :
    v.attemptsLeft e₀ = ((e.message? id).map e.attemptsLeft).getD 0 := by
  have hsame : e.attemptsLeft = e₀.attemptsLeft := by
    funext m
    unfold attemptsLeft
    rw [h.spec?]
  unfold Position.attemptsLeft
  rw [hat.message, hsame]

/-- What happens to each message as often as its attempts allow happens to all of them together as
often as theirs do. -/
theorem Sound.countP_le_workLeft (h : Sound e₀ e past) {p : Happening → Bool}
    (hp : ∀ id v, e.At id v → (Happening.about id hs).countP p ≤ v.attemptsLeft e₀) :
    hs.countP p ≤ e.workLeft := by
  -- Nothing is left of an id without a stored message.
  have hle : ∀ id, (Happening.about id hs).countP p ≤
      ((e.message? id).map e.attemptsLeft).getD 0 := by
    intro id
    obtain ⟨v, hat, -⟩ := h.life id
    rw [← h.attemptsLeft_at hat]
    exact hp id v hat
  -- So what happens is about stored messages.
  have hstored : ∀ x ∈ hs, p x = true → x.messageId ∈ e.messages.map Message.id := by
    intro x hx hpx
    have hpos : 0 < (Happening.about x.messageId hs).countP p :=
      List.countP_pos_iff.mpr ⟨x, List.mem_filter.mpr ⟨hx, beq_self_eq_true _⟩, hpx⟩
    have hleft := hle x.messageId
    cases hm : e.message? x.messageId with
    | none =>
      rw [hm] at hleft
      simp only [Option.map_none, Option.getD_none] at hleft
      omega
    | some m =>
      have hid : m.id = x.messageId := id_of_message?_eq_some hm
      rw [← hid]
      exact List.mem_map_of_mem (List.mem_of_find?_eq_some hm)
  -- The count is split by messages, and what each of them allows is added up.
  calc hs.countP p
      = ((e.messages.map Message.id).map fun id =>
          hs.countP fun x => decide (x.messageId = id) && p x).sum :=
        countP_eq_sum Happening.messageId p h.nodup hstored
    _ = (e.messages.map fun m => (Happening.about m.id hs).countP p).sum := by
        rw [List.map_map]
        congr 1
        exact List.map_congr_left fun m _ => (Happening.countP_about m.id hs p).symm
    _ ≤ (e.messages.map e.attemptsLeft).sum := by
        apply List.sum_le_sum
        intro m hm
        have hleft := hle m.id
        rw [message?_of_mem h.nodup hm] at hleft
        exact hleft

/-- The attempts that begin while nothing is asked for are among those that are left. -/
theorem Sound.countP_isBegun_le (h : Sound e₀ e past) (hp : e₀.IsModest)
    (hturns : IsUnasked turns) : (e.history turns).countP Happening.isBegun ≤ e.workLeft := by
  apply h.countP_le_workLeft
  intro id v hat
  obtain ⟨v', -, hspends⟩ := h.run_spends hp hturns hat
  have hbegun := hspends.begun
  unfold Position.beginsLeft at hbegun
  omega

/-- So are those that are recorded. -/
theorem Sound.countP_isRecord_le (h : Sound e₀ e past) (hp : e₀.IsModest)
    (hturns : IsUnasked turns) : (e.history turns).countP Happening.isRecord ≤ e.workLeft := by
  apply h.countP_le_workLeft
  intro id v hat
  obtain ⟨v', -, hspends⟩ := h.run_spends hp hturns hat
  have hrecorded := hspends.recorded
  omega

end Engine

end Klaxon
