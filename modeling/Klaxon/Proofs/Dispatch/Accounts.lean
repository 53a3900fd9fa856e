import Klaxon.Proofs.Dispatch.AttemptLog
import Mathlib.Algebra.BigOperators.Group.List.Basic
import Mathlib.Data.List.Dedup

/-!
# The accounts of messages

A message counts as sent at its first attempt. From then on it is under way until it is delivered,
fails or is cancelled. `Life.account` keeps this account of one message along its life: the
milestones that are seen of it, and whether it still owes one. A count over a run is the sum of the
counts for each message (`countP_eq_sum`), and `Sound.account` brings the accounts together.
-/

namespace Klaxon

/-! ## Counting by key -/

section Counting

variable {α κ : Type} [DecidableEq κ]

/-- Adding one for each key that is `k` counts the occurrences of `k`. -/
theorem sum_map_eq_count (keys : List κ) (k : κ) :
    (keys.map fun i => if k = i then 1 else 0).sum = keys.count k := by
  induction keys with
  | nil => rfl
  | cons i keys ih =>
    rw [List.map_cons, List.sum_cons, ih, List.count_cons, Nat.add_comm]
    by_cases h : k = i
    · simp [h]
    · have hne : ¬ i = k := fun hi => h hi.symm
      simp [h, hne]

/-- A count is the sum of the counts by key. -/
theorem countP_eq_sum (key : α → κ) (p : α → Bool) {keys : List κ} (hn : keys.Nodup)
    {xs : List α} (h : ∀ x ∈ xs, p x = true → key x ∈ keys) :
    xs.countP p = (keys.map fun k => xs.countP fun x => decide (key x = k) && p x).sum := by
  induction xs with
  | nil => simp
  | cons x xs ih =>
    -- The induction is on the list that is counted: each element adds one to the count of its own
    -- key.
    have hrest := ih fun y hy => h y (List.mem_cons_of_mem x hy)
    simp only [List.countP_cons, List.sum_map_add, ← hrest]
    congr 1
    cases hp : p x with
    | false => simp
    | true =>
      -- The keys are distinct, so that exactly one of the summands grows.
      simp only [Bool.and_true, decide_eq_true_eq, if_true, sum_map_eq_count]
      exact (List.count_eq_one_of_mem hn (h x List.mem_cons_self hp)).symm

end Counting

/-! ## Milestones -/

/-- The count of a milestone. -/
def Tally.count (t : Tally) : Milestone → UInt64
  | .sent => t.sent
  | .delivered => t.delivered
  | .failed => t.failed

namespace Happening

/-- Whether a message that a view sees reaches a milestone. -/
def reaches (k : Milestone) (w : View) (x : Happening) : Bool :=
  x.milestone?.any fun reached => decide (reached.1 = k) && w.sees reached.2

/-- The message that is cancelled behind an attempt. -/
def dropped? : Happening → Option Message
  | .cancelled m _ => if m.attempts.isEmpty then none else some m
  | _ => none

/-- Whether a message that a view sees is cancelled behind an attempt. -/
def drops (w : View) (x : Happening) : Bool := x.dropped?.any w.sees

end Happening

/-- The messages that were cancelled after at least one attempt. -/
def droppedOf (past : List Happening) : List Message := past.filterMap Happening.dropped?

/-- What a tally counts of a happening. -/
theorem View.count_bump (w : View) (t : Tally) (x : Happening) (k : Milestone) :
    (w.bump t x).count k = t.count k + if x.reaches k w then 1 else 0 := by
  unfold bump Happening.reaches
  cases x.milestone? with
  | none => simp
  | some reached =>
    obtain ⟨j, m⟩ := reached
    cases hw : w.sees m with
    | false => simp [hw]
    | true => cases j <;> cases k <;> simp [hw, Milestone.count, Tally.count, Tally.addSent,
        Tally.addDelivered, Tally.addFailed]

/-- What a tally counts of a run. -/
theorem View.count_foldl_bump (w : View) (t : Tally) (past : List Happening) (k : Milestone) :
    (past.foldl w.bump t).count k =
      t.count k + UInt64.ofNat (past.countP (Happening.reaches k w)) := by
  induction past generalizing t with
  | nil => exact (UInt64.add_zero _).symm
  | cons x past ih =>
    -- The counters are words, and the wrap of a sum is the sum of the wraps.
    rw [List.foldl_cons, ih, w.count_bump, List.countP_cons, Nat.add_comm, UInt64.ofNat_add,
      UInt64.add_assoc]
    split <;> rfl

/-! ## The account of a message -/

/-- A message was tried, and its end is not reached. -/
def Message.isUnderWay (m : Message) : Bool := !m.status.isTerminal && !m.attempts.isEmpty

/-- Whether a message was counted as sent and its end is not reached. While the first call is under
way there is no attempt in the log. -/
def Position.owes (w : View) (v : Position) : Bool :=
  match v.message with
  | none => false
  | some m =>
    w.sees m && !m.status.isTerminal && (!m.attempts.isEmpty || Handle.calls v.handle == 1)

/-- Without a call under way only the message counts. -/
theorem Position.owes_of_calls {v : Position} (h : Handle.calls v.handle = 0) (w : View) :
    v.owes w = v.message.any fun m => w.sees m && m.isUnderWay := by
  unfold owes
  cases v.message with
  | none => rfl
  | some m => simp [h, Message.isUnderWay, Bool.and_assoc]

/-- A message is never sent by the record of an attempt. -/
theorem Happening.reaches_sent_recorded (m : Message) (now : Instant) (w : View) :
    (Happening.recorded m now).reaches .sent w = false := by
  simp only [reaches, milestone?]
  cases m.status <;> simp [Milestone.ofStatus?]

/-- The begin of an attempt is no end. -/
theorem Happening.reaches_begun (m : Message) {k : Milestone} (hk : k ≠ .sent) (w : View) :
    (Happening.begun m).reaches k w = false := by
  simp only [reaches, milestone?]
  split
  · simp [hk.symm]
  · rfl

/-- An attempt that begins is the first one, or its message was under way. -/
theorem Position.account_begun {m : Message} (hs : m.status = .sending) (attemptedAt : Instant)
    (w : View) :
    ((Happening.begun m).reaches .sent w).toNat +
        (Position.owes w ⟨some m, some (.flight (.claimed m attemptedAt))⟩).toNat =
      (w.sees m).toNat := by
  unfold Happening.reaches Happening.milestone? Position.owes
  cases he : m.attempts.isEmpty <;> simp [he, hs, Handle.calls, Status.isTerminal]

/-- While its call is under way a message is counted as sent. -/
theorem Position.owes_calling {m : Message} (hs : m.status = .sending) (call : Call) (w : View) :
    Position.owes w ⟨some m, some (.flight (.calling call))⟩ = w.sees m := by
  simp [owes, hs, Handle.calls, Status.isTerminal]

/-- The attempt of a message that was counted as sent ends it, or leaves it under way. -/
theorem Message.Settles.account {spec : ChannelSpec} {attemptedAt now : Instant} {report : Report}
    {m m' : Message} {t : Option Timer} (h : m.Settles spec attemptedAt now report m' t)
    (w : View) :
    (w.sees m).toNat =
      ((Happening.recorded m' now).reaches .delivered w).toNat +
        ((Happening.recorded m' now).reaches .failed w).toNat +
        (Position.owes w ⟨some m', t.map .timer⟩).toNat := by
  obtain ⟨a, -, hattempts⟩ := h.attempts
  have hlogged : m'.attempts.isEmpty = false := by simp [hattempts]
  rw [← w.sees_congr h.sameOrigin]
  unfold Happening.reaches Happening.milestone? Position.owes
  cases t with
  | none =>
    rcases h.status_of_none with hs | hs
    · simp [hs, Milestone.ofStatus?, Status.isTerminal]
    · simp [hs, Milestone.ofStatus?, Status.isTerminal]
  | some t =>
    obtain ⟨-, -, hs⟩ := h.timer_eq
    simp [hs, hlogged, Milestone.ofStatus?, Status.isTerminal]

/-- Both elements of a pair may count. -/
theorem countP_pair {α : Type} (p : α → Bool) (a b : α) :
    [a, b].countP p = (p a).toNat + (p b).toNat := by
  cases ha : p a <;> cases hb : p b <;> simp [ha, hb]

/-- A step keeps the account of a message. -/
theorem Step.account {e₀ : Engine} {id : String} {now : Instant} {hs : List Happening}
    {v v' : Position} (h : Step e₀ id now v hs v') (hv : v.Shape) (w : View) :
    hs.countP (Happening.reaches .sent w) + (v.owes w).toNat =
      hs.countP (Happening.reaches .delivered w) + hs.countP (Happening.reaches .failed w) +
        hs.countP (Happening.drops w) + (v'.owes w).toNat := by
  cases h with
  | stay => simp
  | @cancelled m h hq =>
    -- Its message was not claimed, so that no call is under way.
    have hcalls : Handle.calls h = 0 := by
      cases h with
      | none => rfl
      | some x => exact Handle.calls_of_isIdle (hv.isIdle (by simp [hq]) x rfl)
    rw [Position.owes_of_calls hcalls, Position.owes_of_calls hcalls]
    cases he : m.attempts.isEmpty <;> cases hw : w.sees m <;>
      simp [Message.isUnderWay, Happening.reaches, Happening.milestone?, Happening.drops,
        Happening.dropped?, he, hw, hq, Status.isTerminal]
  -- What is forgotten is terminal, and owes nothing.
  | forgotten hterminal => simp [Position.owes, hterminal]
  | pulled => simp [Position.owes, Handle.calls]
  | skipped => simp [Position.owes, Handle.calls]
  | claimed hq => simp [Position.owes, Handle.calls, hq, Status.isTerminal]
  | @called m attemptedAt call _ =>
    -- The begin counts as sent if no attempt is in the log, and the message owes from then on.
    have hsend := hv.sending (by simp)
    have hbegun := Position.account_begun hsend attemptedAt w
    have hdelivered := Happening.reaches_begun m (k := .delivered) (by decide) w
    have hfailed := Happening.reaches_begun m (k := .failed) (by decide) w
    simp only [countP_pair, hdelivered, hfailed, Position.owes_calling hsend, ← hbegun]
    simp [Happening.reaches, Happening.milestone?, Happening.drops, Happening.dropped?]
  | @refused m m' attemptedAt spec content rendered t _ _ hset =>
    have hsend := hv.sending (by simp)
    -- The attempt begins and ends in one step: what the begin adds, the end accounts for.
    have hbegun := Position.account_begun hsend attemptedAt w
    have hdelivered := Happening.reaches_begun m (k := .delivered) (by decide) w
    have hfailed := Happening.reaches_begun m (k := .failed) (by decide) w
    have hsent := Happening.reaches_sent_recorded m' now w
    have hend := hset.account w
    rw [w.sees_congr (m.sameOrigin_withNewContent rendered)] at hend
    simp only [countP_pair, hdelivered, hfailed, hsent, Happening.drops, Happening.dropped?,
      Option.any_none, Bool.toNat_false]
    omega
  | @completed m m' call spec report t _ hset =>
    -- The call is over, and the message pays back or goes on to owe.
    have hsend := hv.sending (by simp)
    have hsent := Happening.reaches_sent_recorded m' now w
    have hend := hset.account w
    rw [w.sees_congr (m.sameOrigin_withNewContent call.rendered)] at hend
    simp only [countP_pair, hsent, Position.owes_calling hsend, hend]
    simp [Happening.reaches, Happening.milestone?, Happening.drops, Happening.dropped?]
  | fired => simp [Position.owes, Handle.calls]
  | dropped => simp [Position.owes, Handle.calls]

/-- The account of a message is kept all its life. -/
theorem Life.account {e₀ : Engine} {id : String} {past : List Happening} {v : Position}
    (h : Life e₀ id past v) (w : View) :
    past.countP (Happening.reaches .sent w) =
      past.countP (Happening.reaches .delivered w) + past.countP (Happening.reaches .failed w) +
        past.countP (Happening.drops w) + (v.owes w).toNat := by
  induction h with
  | nowhere => rfl
  | made _ hnew _ hi =>
    simp [Happening.reaches, Happening.milestone?, Happening.drops, Happening.dropped?,
      Position.owes, hnew.attempts, Handle.calls_of_isIdle hi]
  | step hl h ih =>
    have hstep := h.account hl.fits.shape w
    simp only [List.countP_append]
    omega

/-! ## Every run -/

/-- What is counted of one message. -/
theorem Happening.countP_about (id : String) (past : List Happening) (p : Happening → Bool) :
    (Happening.about id past).countP p =
      past.countP fun x => decide (x.messageId = id) && p x := by
  unfold about
  rw [List.countP_filter]
  refine List.countP_congr fun x _ => ?_
  simp [and_comm]

/-- The cancelled messages that a view sees are as many as the cancellings it sees. -/
theorem countP_droppedOf (past : List Happening) (w : View) :
    (droppedOf past).countP w.sees = past.countP (Happening.drops w) := by
  unfold droppedOf
  rw [List.countP_filterMap]
  refine List.countP_congr fun x _ => ?_
  unfold Happening.drops
  cases x.dropped? <;> rfl

namespace Engine

/-- Where ids are distinct, one message at most is stored under an id. -/
theorem countP_messages {e : Engine} (hn : (e.messages.map Message.id).Nodup)
    (p : Message → Bool) (id : String) :
    (e.messages.countP fun m => decide (m.id = id) && p m) =
      ((e.message? id).any p).toNat := by
  unfold message?
  generalize e.messages = ms at hn
  induction ms with
  | nil => rfl
  | cons m ms ih =>
    rw [List.map_cons, List.nodup_cons] at hn
    by_cases hid : m.id = id
    -- The first message is the one of the id, and no other can be.
    · have hrest : (ms.countP fun m => decide (m.id = id) && p m) = 0 := by
        rw [List.countP_eq_zero]
        intro a ha hp
        rw [Bool.and_eq_true, decide_eq_true_eq] at hp
        have hsame : a.id = m.id := hp.1.trans hid.symm
        exact hn.1 (hsame ▸ List.mem_map_of_mem ha)
      rw [List.countP_cons, hrest]
      cases hp : p m <;> simp [hid, hp]
    · rw [List.countP_cons, ih hn.2]
      simp [hid]

variable {e₀ e : Engine} {past : List Happening}

/-- The accounts of all messages together. -/
theorem Sound.account (h : Sound e₀ e past) (hrest : ∀ id, e.callOf? id = none) (w : View) :
    past.countP (Happening.reaches .sent w) =
      past.countP (Happening.reaches .delivered w) + past.countP (Happening.reaches .failed w) +
        past.countP (Happening.drops w) +
        e.messages.countP fun m => w.sees m && m.isUnderWay := by
  -- The ids that the run knows of: those that something was seen of, and those that are stored.
  have hn := List.nodup_dedup (past.map Happening.messageId ++ e.messages.map Message.id)
  have hpast : ∀ x ∈ past, x.messageId ∈
      (past.map Happening.messageId ++ e.messages.map Message.id).dedup := fun x hx =>
    List.mem_dedup.mpr (List.mem_append_left _ (List.mem_map_of_mem hx))
  have hmessages : ∀ m ∈ e.messages, m.id ∈
      (past.map Happening.messageId ++ e.messages.map Message.id).dedup := fun m hm =>
    List.mem_dedup.mpr (List.mem_append_right _ (List.mem_map_of_mem hm))
  generalize (past.map Happening.messageId ++ e.messages.map Message.id).dedup = ids
    at hn hpast hmessages
  -- Both sides are sums over these ids, so that it is enough to show the equation for each id.
  have hsum := fun p => countP_eq_sum Happening.messageId p hn fun x hx _ => hpast x hx
  rw [hsum (Happening.reaches .sent w), hsum (Happening.reaches .delivered w),
    hsum (Happening.reaches .failed w), hsum (Happening.drops w),
    countP_eq_sum Message.id (fun m => w.sees m && m.isUnderWay) hn fun m hm _ => hmessages m hm,
    ← List.sum_map_add, ← List.sum_map_add, ← List.sum_map_add]
  congr 1
  refine List.map_congr_left fun id _ => ?_
  obtain ⟨v, hat, hlife⟩ := h.life id
  have hcalls : Handle.calls v.handle = 0 := by
    rw [hat.calls_eq, hrest]
    rfl
  have haccount := hlife.account w
  rw [Position.owes_of_calls hcalls, ← hat.message] at haccount
  simp only [← Happening.countP_about, countP_messages h.nodup]
  exact haccount

end Engine

end Klaxon
