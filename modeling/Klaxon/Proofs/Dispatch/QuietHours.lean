import Klaxon.Proofs.Dispatch.Timeliness

/-!
# Quiet hours

Quiet hours are looked at where the messages of an alert are made. So no message of an alert below
critical is made for a recipient in its quiet hours, and whatever is tried later was made outside of
them (`run_madeOutsideQuietHours`). They are not looked at again: a message that is deferred, is to
be retried or stands behind others in its lane may be tried in the middle of the quiet hours, as in
`deferredIntoTheNight_disturbs`.
-/

namespace Klaxon

/-! ## What was made is what is tried -/

/-- All that is seen of a message has the origin of the message that was made. -/
theorem Life.sameOrigin {e₀ : Engine} {id : String} {past : List Happening} {v : Position}
    (h : Life e₀ id past v) {first : Message} (hmade : .made first ∈ past) :
    (∀ m, v.message = some m → first.SameOrigin m) ∧
      ∀ m, .begun m ∈ past → first.SameOrigin m := by
  induction h with
  | nowhere => simp at hmade
  | made =>
    obtain rfl := Happening.made.inj (List.mem_singleton.mp hmade)
    refine ⟨fun m hm => ?_, fun m hm => by simp at hm⟩
    obtain rfl := Option.some.inj hm
    exact .refl _
  | step hl hstep ih =>
    -- A message is made once, at the begin of its life; no step makes another one.
    rcases List.mem_append.mp hmade with hmade | hmade
    · obtain ⟨hmessage, hbegun⟩ := ih hmade
      refine ⟨fun m' hm' => ?_, fun m hm => ?_⟩
      · obtain ⟨m, hm, hsame⟩ := hstep.sameOrigin hm'
        exact (hmessage m hm).trans hsame
      · rcases List.mem_append.mp hm with hm | hm
        · exact hbegun m hm
        · rcases hstep.seen hm with ⟨m', hm', heq⟩ | ⟨_, _, heq⟩ | ⟨_, _, _, heq⟩ | ⟨_, heq⟩ |
            ⟨_, heq⟩
          · obtain rfl := Happening.begun.inj heq
            exact hmessage m hm'
          all_goals simp at heq
    · rcases hstep.seen hmade with ⟨_, _, heq⟩ | ⟨_, _, heq⟩ | ⟨_, _, _, heq⟩ | ⟨_, heq⟩ | ⟨_, heq⟩
      all_goals simp at heq

namespace Engine

/-- The message of a notice was made. -/
theorem made_of_mem_notices {e : Engine} {turns : List (Instant × Turn)} {n : Notice}
    (hn : n ∈ e.notices turns) : .made n.message ∈ e.history turns := by
  induction turns generalizing e with
  | nil => simp [notices, observe] at hn
  | cons t rest ih =>
    obtain ⟨now, t⟩ := t
    rcases List.mem_append.mp hn with hn | hn
    · refine List.mem_append_left _ ?_
      cases t with
      | offer alert recipient priority channelType =>
        obtain ⟨m, hm, rfl⟩ := List.mem_map.mp hn
        exact List.mem_map_of_mem hm
      | _ => simp [noticesOf] at hn
    · exact List.mem_append_right _ (ih hn)

/-- The begin of an attempt was seen. -/
theorem begun_of_mem_moments {e : Engine} {turns : List (Instant × Turn)} {m : Message}
    {attemptedAt : Instant} (hm : .begun m attemptedAt ∈ e.moments turns) :
    .begun m ∈ e.history turns := by
  induction turns generalizing e with
  | nil => simp [moments, observe] at hm
  | cons t rest ih =>
    rcases List.mem_append.mp hm with hm | hm
    · obtain ⟨x, hx, heq⟩ := List.mem_filterMap.mp hm
      refine List.mem_append_left _ ?_
      cases x with
      | begun m' =>
        simp only [Happening.moment?] at heq
        split at heq
        · obtain ⟨rfl, -⟩ := Moment.begun.inj (Option.some.inj heq)
          exact hx
        · simp at heq
      | _ => simp [Happening.moment?] at heq
    · exact List.mem_append_right _ (ih hm)

/-- The attempts at the message of a notice are attempts at what was made. -/
theorem Sound.sameOrigin_of_notice {e₀ : Engine} {turns : List (Instant × Turn)}
    (h : Sound e₀ (e₀.run turns) (e₀.history turns)) {n : Notice} (hn : n ∈ e₀.notices turns)
    {m : Message} {attemptedAt : Instant} (hm : .begun m attemptedAt ∈ e₀.moments turns)
    (hid : m.id = n.message.id) : n.message.SameOrigin m := by
  obtain ⟨v, -, hlife⟩ := h.life m.id
  have hmade : .made n.message ∈ Happening.about m.id (e₀.history turns) :=
    List.mem_filter.mpr ⟨made_of_mem_notices hn, beq_iff_eq.mpr hid.symm⟩
  have hbegun : .begun m ∈ Happening.about m.id (e₀.history turns) :=
    List.mem_filter.mpr ⟨begun_of_mem_moments hm, beq_self_eq_true _⟩
  exact (hlife.sameOrigin hmade).2 m hbegun

/-! ## Alerts that fan out -/

end Engine

/-- Alerts are offered as fan-outs do it, over one directory. -/
def Turn.AlertsFanOut (directory : Directory) (turns : List (Instant × Turn)) : Prop :=
  ∀ t ∈ turns, t.2.recipient?.isSome = true →
    ∃ alert priority, t.2.FansOut directory alert priority t.1

namespace Engine

/-- No attempt at a message of an alert below critical falls into the quiet hours of the
recipient. -/
def KeepsQuiet (e : Engine) (turns : List (Instant × Turn)) : Prop :=
  ∀ n ∈ e.notices turns, n.alert.severity ≠ .critical → ∀ m attemptedAt,
    .begun m attemptedAt ∈ e.moments turns → m.id = n.message.id →
      n.recipient.inQuietHours attemptedAt = false

/-- The message of a notice is made where quiet hours do not hold back the alert. -/
theorem isHeldBack_of_mem_notices {e : Engine} {directory : Directory}
    {turns : List (Instant × Turn)} (hfans : Turn.AlertsFanOut directory turns) {n : Notice}
    (hn : n ∈ e.notices turns) :
    isHeldBack n.alert n.recipient n.message.createdAt = false := by
  induction turns generalizing e with
  | nil => simp [notices, observe] at hn
  | cons t rest ih =>
    obtain ⟨now, t⟩ := t
    rcases List.mem_append.mp hn with hn | hn
    · cases t with
      | offer alert recipient priority channelType =>
        obtain ⟨m, hm, rfl⟩ := List.mem_map.mp hn
        -- The message is created at the time of the turn, which is the one the quiet hours were
        -- asked for.
        have hcreated : m.createdAt = now := by
          simp only [notifyOver] at hm
          split at hm
          · simp at hm
          · split at hm
            · simp at hm
            · rw [List.mem_singleton.mp hm, accept_snd]
              rfl
        obtain ⟨alert', priority', hoffer⟩ := hfans _ List.mem_cons_self rfl
        cases hoffer with
        | offer _ hfree =>
          show isHeldBack alert recipient m.createdAt = false
          rw [hcreated]
          exact hfree
      | _ => simp [noticesOf] at hn
    · exact ih (fun t ht => hfans t (List.mem_cons_of_mem _ ht)) hn

/-- Whatever is tried of an alert below critical was made outside the quiet hours of the
recipient. -/
theorem run_madeOutsideQuietHours (registry : Registry) (templates : TemplateStore)
    (directory : Directory) (policy : Policy) (idSupply : IdSupply) {turns : List (Instant × Turn)}
    (hfans : Turn.AlertsFanOut directory turns) {n : Notice}
    (hn : n ∈ (create registry templates directory policy idSupply).notices turns)
    (hseverity : n.alert.severity ≠ .critical) {m : Message} {attemptedAt : Instant}
    (hm : .begun m attemptedAt ∈
      (create registry templates directory policy idSupply).moments turns)
    (hid : m.id = n.message.id) : n.recipient.inQuietHours m.createdAt = false := by
  have hsound := run_sound registry templates directory policy idSupply turns
  rw [(hsound.sameOrigin_of_notice hn hm hid).createdAt]
  -- The alert is below critical, so that only the quiet hours decide whether it is held back.
  have hheld := isHeldBack_of_mem_notices hfans hn
  unfold isHeldBack at hheld
  simpa [hseverity] using hheld

/-- A recipient who is not to be disturbed between ten and six, and allows one alert message an
hour. -/
def sleeper : Recipient :=
  { id := "sleeper", name := "Sleeper", locale := none, contacts := [(.webhook, "/sleeper")]
    preferences := [], severityThresholds := [(.medium, [.webhook])]
    quietHours := some ⟨⟨79200, 0⟩, ⟨21600, 0⟩⟩, maxPerHour := some 1, maxPerDay := none }

/-- The instant of a minute of the first day. -/
def minute (k : Int) : Instant := ⟨k * Time.minute, false⟩

/-- Two alerts at half past nine. The message of the second one is deferred to half past ten, and is
tried then. -/
def deferredIntoTheNight : List (Instant × Turn) :=
  List.replicate 2 (minute 1290, .offer blaze sleeper .normal .webhook) ++
    pullAndTry (minute 1290) "m1" (.ok .silent) ++
    [(minute 1350, .fire ⟨"m2", .normal, minute 1350⟩)] ++
    pullAndTry (minute 1350) "m2" (.ok .silent)

/-- The two alerts are offered as a fan-out does it. -/
theorem deferredIntoTheNight_fansOut :
    Turn.AlertsFanOut [("sleeper", sleeper)] deferredIntoTheNight := by
  intro t ht hr
  have hoffer : ∀ t ∈ deferredIntoTheNight, t.2.recipient?.isSome = true →
      t = (minute 1290, .offer blaze sleeper .normal .webhook) := by
    intro t ht
    simp only [deferredIntoTheNight, pullAndTry, List.mem_append, List.mem_replicate,
      List.mem_cons, List.not_mem_nil, or_false] at ht
    rcases ht with ((⟨-, rfl⟩ | rfl | rfl | rfl | rfl) | rfl) | rfl | rfl | rfl | rfl
    · exact fun _ => rfl
    all_goals simp [Turn.recipient?]
  rw [hoffer t ht hr]
  have hget : Directory.get? [("sleeper", sleeper)] "sleeper" = some sleeper := rfl
  exact ⟨blaze, .normal, .offer hget (by decide +kernel) (by decide +kernel)⟩

/-- One of the messages is tried within the quiet hours. -/
theorem deferredIntoTheNight_tries :
    ∃ n ∈ (create [hook] .withDefaults [("sleeper", sleeper)] deferring).notices
        deferredIntoTheNight, n.alert.severity ≠ .critical ∧ ∃ m attemptedAt,
      .begun m attemptedAt ∈ (create [hook] .withDefaults [("sleeper", sleeper)]
        deferring).moments deferredIntoTheNight ∧ m.id = n.message.id ∧
      n.recipient.inQuietHours attemptedAt = true := by
  have hany : ((create [hook] .withDefaults [("sleeper", sleeper)] deferring).notices
      deferredIntoTheNight).any (fun n =>
        decide (n.alert.severity ≠ .critical) &&
          ((create [hook] .withDefaults [("sleeper", sleeper)] deferring).moments
            deferredIntoTheNight).any fun x =>
              x.startsAt?.any n.recipient.inQuietHours && x.messageId == n.message.id) =
        true := by
    decide +kernel
  obtain ⟨n, hn, hany⟩ := List.any_eq_true.mp hany
  obtain ⟨hseverity, hany⟩ := Bool.and_eq_true_iff.mp hany
  obtain ⟨x, hx, hany⟩ := List.any_eq_true.mp hany
  obtain ⟨hstarts, hid⟩ := Bool.and_eq_true_iff.mp hany
  cases x with
  | begun m attemptedAt =>
    exact ⟨n, hn, of_decide_eq_true hseverity, m, attemptedAt, hx, beq_iff_eq.mp hid,
      by simpa [Moment.startsAt?] using hstarts⟩
  | _ => simp [Moment.startsAt?] at hstarts

/-- It was made outside of them. -/
theorem deferredIntoTheNight_madeOutside :
    ∃ n ∈ (create [hook] .withDefaults [("sleeper", sleeper)] deferring).notices
        deferredIntoTheNight, ∃ m attemptedAt,
      .begun m attemptedAt ∈ (create [hook] .withDefaults [("sleeper", sleeper)]
        deferring).moments deferredIntoTheNight ∧ m.id = n.message.id ∧
      n.recipient.inQuietHours attemptedAt = true ∧
      n.recipient.inQuietHours m.createdAt = false := by
  obtain ⟨n, hn, hseverity, m, attemptedAt, hm, hid, hquiet⟩ := deferredIntoTheNight_tries
  exact ⟨n, hn, m, attemptedAt, hm, hid, hquiet,
    run_madeOutsideQuietHours [hook] .withDefaults [("sleeper", sleeper)] deferring
      .numbered deferredIntoTheNight_fansOut hn hseverity hm hid⟩

/-- Alerts fan out in this run, its clock does not go back and its timers are due, and yet it does
not keep quiet. -/
theorem deferredIntoTheNight_disturbs :
    Turn.AlertsFanOut [("sleeper", sleeper)] deferredIntoTheNight ∧
    (deferredIntoTheNight.map Prod.fst).Pairwise (· ≤ ·) ∧ Turn.OnlyDue deferredIntoTheNight ∧
    ¬ (create [hook] .withDefaults [("sleeper", sleeper)] deferring).KeepsQuiet
      deferredIntoTheNight := by
  refine ⟨deferredIntoTheNight_fansOut, by decide +kernel, by decide +kernel, fun hkeeps => ?_⟩
  obtain ⟨n, hn, hseverity, m, attemptedAt, hm, hid, hquiet⟩ := deferredIntoTheNight_tries
  have hfalse := hkeeps n hn hseverity m attemptedAt hm hid
  exact absurd (hquiet.symm.trans hfalse) (by decide)

end Engine

end Klaxon
