import Klaxon.Proofs.Dispatch.Records

/-!
# Engines whose messages live

`Engine.Sound` is the invariant of runs: every id has one position, and got there by a life of
steps. There are two ways to keep it. A change that `Moves` messages takes a step with each of them
(`Sound.moves`; `Sound.movesOne` where it is one message), and a change that `Receives` a message
begins a life (`Sound.receives`).
-/

namespace Klaxon

/-- What is numbered on from a number is numbered in one stretch after the other. -/
theorem map_range_add {α : Type} (f : Nat → α) (start m n : Nat) :
    (List.range (m + n)).map (fun i => f (start + i + 1)) =
      (List.range m).map (fun i => f (start + i + 1)) ++
        (List.range n).map fun i => f (start + m + i + 1) := by
  rw [List.range_add, List.map_append, List.map_map]
  refine congrArg _ (List.map_congr_left fun i _ => ?_)
  rw [Function.comp, Nat.add_assoc start m i]

namespace Engine

/-- An engine in a run from `e₀`, with what was seen to happen in the run. -/
structure Sound (e₀ e : Engine) (past : List Happening) : Prop where
  templates : e.templates = e₀.templates
  idSupply : e.idSupply = e₀.idSupply
  specs : e.registry.map Channel.spec = e₀.registry.map Channel.spec
  nodup : (e.messages.map Message.id).Nodup
  life : ∀ id, ∃ v, e.At id v ∧ Life e₀ id (Happening.about id past) v
  /-- What was counted is what happened. -/
  tally : ∀ w, e.tally w = past.foldl w.bump (e₀.tally w)
  /-- Nothing is known of the ids to come. -/
  unused : ∀ k, e.made < k → e.At (e.idSupply.id .message k) ⟨none, none⟩ ∧
    Happening.about (e.idSupply.id .message k) past = []

/-- The channels of a run have the specifications that they began with. -/
theorem Sound.spec? {e₀ e : Engine} {past : List Happening} (h : Sound e₀ e past) (id : String) :
    e.spec? id = e₀.spec? id := spec?_congr h.specs id

/-- A change that takes one step with each message that there is. -/
structure Moves (e₀ e : Engine) (now : Instant) (hs : List Happening) (e' : Engine) : Prop
    extends Keeps e e' where
  nodup : (e'.messages.map Message.id).Nodup
  tally : ∀ w, e'.tally w = hs.foldl w.bump (e.tally w)
  step : ∀ id v, e.At id v → v.Fits e₀ id →
    ∃ v', e'.At id v' ∧ Step e₀ id now v (Happening.about id hs) v'

/-- Lives go on. -/
theorem Sound.moves {e₀ e e' : Engine} {past hs : List Happening} {now : Instant}
    (h : Sound e₀ e past) (hm : Moves e₀ e now hs e') : Sound e₀ e' (past ++ hs) where
  templates := hm.templates.trans h.templates
  idSupply := hm.idSupply.trans h.idSupply
  specs := hm.specs.trans h.specs
  nodup := hm.nodup
  life id := by
    obtain ⟨v, hat, hlife⟩ := h.life id
    obtain ⟨v', hat', hstep⟩ := hm.step id v hat hlife.fits
    rw [Happening.about_append]
    exact ⟨v', hat', hlife.step hstep⟩
  tally w := by rw [List.foldl_append, ← h.tally w, hm.tally w]
  unused k hk := by
    -- No message is made, so that the ids to come are the same, and nothing happens to them.
    rw [hm.made] at hk
    rw [hm.idSupply]
    obtain ⟨hat, hpast⟩ := h.unused k hk
    obtain ⟨v', hat', hstep⟩ := hm.step _ _ hat (Position.fits_nowhere e₀ _)
    obtain ⟨rfl, hnone⟩ := hstep.of_nowhere
    rw [Happening.about_append, hpast, hnone]
    exact ⟨hat', rfl⟩

/-- A step with one message, while the others stay. -/
theorem Sound.movesOne {e₀ e e' : Engine} {past hs : List Happening} {j : String} {v v' : Position}
    (h : Sound e₀ e past) (now : Instant) (hk : e.Keeps e')
    (hids : e'.messages.map Message.id = e.messages.map Message.id)
    (htally : ∀ w, e'.tally w = hs.foldl w.bump (e.tally w))
    (hothers : ∀ id, id ≠ j → e.Agrees e' id) (hat : e.At j v) (hat' : e'.At j v')
    (hstep : Step e₀ j now v hs v') : Moves e₀ e now hs e' := by
  obtain ⟨w, hw, hlife⟩ := h.life j
  obtain rfl := hat.unique hw
  have habout := hstep.messageId_eq hlife.fits
  refine ⟨hk, hids ▸ h.nodup, htally, fun id u hu _ => ?_⟩
  -- All that is seen is about the one message: its position steps, the others stay.
  by_cases hid : id = j
  · subst hid
    obtain rfl := hat.unique hu
    rw [Happening.about_of_forall_eq habout]
    exact ⟨v', hat', hstep⟩
  · have hne : ∀ x ∈ hs, x.messageId ≠ id := fun x hx he => hid (he.symm.trans (habout x hx))
    rw [Happening.about_of_forall_ne hne]
    exact ⟨u, hu.congr (hothers id hid), .stay u⟩

/-- A change of nothing that messages depend on moves none of them. -/
theorem Sound.movesNone {e₀ e e' : Engine} {past : List Happening} (h : Sound e₀ e past)
    (now : Instant) (hae : e.Alike e') (htally : ∀ w, e'.tally w = e.tally w) :
    Moves e₀ e now [] e' := by
  refine ⟨hae.toKeeps, ?_, htally, fun id v hat _ => ⟨v, hat.congr (hae.agrees id), .stay v⟩⟩
  rw [hae.messages]
  exact h.nodup

/-- A change of nothing that messages depend on. -/
theorem Sound.alike {e₀ e e' : Engine} {past : List Happening} (h : Sound e₀ e past)
    (hae : e.Alike e') (htally : ∀ w, e'.tally w = e.tally w) : Sound e₀ e' past where
  templates := hae.templates.trans h.templates
  idSupply := hae.idSupply.trans h.idSupply
  specs := hae.specs.trans h.specs
  nodup := by
    rw [hae.messages]
    exact h.nodup
  life id := by
    obtain ⟨v, hat, hlife⟩ := h.life id
    exact ⟨v, hat.congr (hae.agrees id), hlife⟩
  tally w := (htally w).trans (h.tally w)
  unused k hk := by
    rw [hae.made] at hk
    rw [hae.idSupply]
    obtain ⟨hat, hpast⟩ := h.unused k hk
    exact ⟨hat.congr (hae.agrees _), hpast⟩

/-- In an engine without messages all ids are nowhere. -/
theorem create_at (registry : Registry) (templates : TemplateStore) (directory : Directory)
    (policy : Policy) (idSupply : IdSupply) (id : String) :
    (create registry templates directory policy idSupply).At id ⟨none, none⟩ :=
  ⟨rfl, fun p => by cases p <;> rfl, rfl, rfl⟩

/-- An engine without messages is sound for itself. -/
theorem create_sound (registry : Registry) (templates : TemplateStore) (directory : Directory)
    (policy : Policy) (idSupply : IdSupply) :
    Sound (create registry templates directory policy idSupply)
      (create registry templates directory policy idSupply) [] := by
  have hat := create_at registry templates directory policy idSupply
  exact ⟨rfl, rfl, rfl, .nil, fun id => ⟨_, hat id, .nowhere⟩, fun _ => rfl,
    fun k _ => ⟨hat _, rfl⟩⟩

/-! ## New messages -/

/-- The handle of a new message. -/
def firstHandle (d : Draft) (id : String) (now : Instant) : Handle :=
  if now < d.scheduledAt then .timer ⟨id, d.priority, d.scheduledAt⟩ else .lane d.priority

/-- Nothing is under way for a new message. -/
theorem firstHandle_isIdle (d : Draft) (id : String) (now : Instant) :
    (firstHandle d id now).IsIdle := by
  unfold firstHandle
  split <;> exact trivial

/-- The new message is where its draft says. -/
theorem accept_at_new {e : Engine} {d : Draft} {now : Instant}
    (h : e.At e.nextId ⟨none, none⟩) :
    (e.accept d now).1.At e.nextId
      ⟨some (d.toMessage e.nextId now), some (firstHandle d e.nextId now)⟩ := by
  have hm : (e.messages ++ [d.toMessage e.nextId now]).find? (fun m => m.id == e.nextId) =
      some (d.toMessage e.nextId now) := by
    have hnone : e.messages.find? (fun m => m.id == e.nextId) = none := h.message
    rw [List.find?_append, hnone]
    simp [Draft.toMessage]
  unfold accept firstHandle
  -- The timer is the only one of the id, or the lane gets the id for the first time.
  by_cases hlater : now < d.scheduledAt
  · simp only [hlater, if_true]
    refine ⟨hm, h.lanes, ?_, h.flights⟩
    have ht : e.timersOf e.nextId = [] := h.timers
    refine (timersOf_append _ _ _).trans ((if_pos rfl).trans ?_)
    exact congrArg (· ++ [(⟨e.nextId, d.priority, d.scheduledAt⟩ : Timer)]) ht
  · simp only [hlater, if_false]
    refine ⟨hm, fun p => ?_, h.timers, h.flights⟩
    have hl : (e.lanes.get p).count e.nextId = 0 := h.lanes p
    have hpush := count_push e.lanes d.priority p e.nextId e.nextId
    rw [hl] at hpush
    simpa [Handle.laneCount, Draft.toMessage] using hpush

/-- The other messages stay. -/
theorem accept_agrees (e : Engine) (d : Draft) (now : Instant) {id : String} (h : id ≠ e.nextId) :
    e.Agrees (e.accept d now).1 id := by
  have hne : ¬ e.nextId = id := fun he => h he.symm
  have hm : (e.messages ++ [d.toMessage e.nextId now]).find? (fun m => m.id == id) =
      e.messages.find? (fun m => m.id == id) := by
    rw [List.find?_append]
    have : [d.toMessage e.nextId now].find? (fun m => m.id == id) = none := by
      simpa [Draft.toMessage] using hne
    rw [this, Option.or_none]
  unfold accept
  by_cases hlater : now < d.scheduledAt
  · simp only [hlater, if_true]
    refine ⟨hm, fun _ => rfl, ?_, rfl⟩
    exact (timersOf_append _ _ _).trans (if_neg hne)
  · simp only [hlater, if_false]
    refine ⟨hm, fun p => ?_, rfl, rfl⟩
    have hpush := count_push e.lanes d.priority p e.nextId id
    simpa [Draft.toMessage, hne] using hpush

/-- The message that is accepted is that of the draft, with the next id. -/
theorem accept_snd (e : Engine) (d : Draft) (now : Instant) :
    (e.accept d now).2 = d.toMessage e.nextId now := by
  unfold accept
  split <;> rfl

/-- Nothing is known of the next id. -/
theorem Sound.nextId_unused {e₀ e : Engine} {past : List Happening} (h : Sound e₀ e past) :
    e.At e.nextId ⟨none, none⟩ ∧ Happening.about e.nextId past = [] :=
  h.unused (e.made + 1) (Nat.lt_succ_self e.made)

/-- An accepted message begins at the next id, and the other ids stay where they are. -/
theorem Sound.accept_at {e₀ e : Engine} {past : List Happening} (h : Sound e₀ e past) (d : Draft)
    (now : Instant) (id : String) :
    (e.Agrees (e.accept d now).1 id ∧ Happening.about id [.made (e.accept d now).2] = []) ∨
    (id = e.nextId ∧ e.At id ⟨none, none⟩ ∧ Happening.about id past = [] ∧
      Happening.about id [.made (e.accept d now).2] = [.made (d.toMessage id now)] ∧
      (e.accept d now).1.At id ⟨some (d.toMessage id now), some (firstHandle d id now)⟩) := by
  rw [accept_snd]
  by_cases hid : id = e.nextId
  · subst hid
    obtain ⟨hnew, hpast⟩ := h.nextId_unused
    refine .inr ⟨rfl, hnew, hpast, Happening.about_of_forall_eq fun x hx => ?_,
      accept_at_new hnew⟩
    rw [List.mem_singleton.mp hx]
    rfl
  · refine .inl ⟨e.accept_agrees d now hid, Happening.about_of_forall_ne fun x hx => ?_⟩
    rw [List.mem_singleton.mp hx]
    exact fun he => hid he.symm

/-- A life begins. -/
theorem Sound.accept {e₀ e : Engine} {past : List Happening} (h : Sound e₀ e past) (d : Draft)
    (now : Instant) (hr : e₀.Routes (d.toMessage e.nextId now)) :
    Sound e₀ (e.accept d now).1 (past ++ [.made (e.accept d now).2]) := by
  have hmessages : (e.accept d now).1.messages = e.messages ++ [d.toMessage e.nextId now] := by
    unfold Engine.accept
    split <;> rfl
  have hcount : (e.accept d now).1.made = e.made + 1 := by
    unfold Engine.accept
    split <;> rfl
  have hsupply : (e.accept d now).1.idSupply = e.idSupply := by
    unfold Engine.accept
    split <;> rfl
  refine ⟨?_, hsupply.trans h.idSupply, ?_, ?_, fun id => ?_, fun w => ?_, fun k hk => ?_⟩
  · rw [← h.templates]
    unfold Engine.accept
    split <;> rfl
  · rw [← h.specs]
    unfold Engine.accept
    split <;> rfl
  · rw [hmessages, List.map_append, List.nodup_append]
    -- The next id is that of no stored message, since nothing is known of it.
    refine ⟨h.nodup, by simp, fun a ha b hb hab => ?_⟩
    obtain rfl : b = e.nextId := by simpa [Draft.toMessage] using hb
    obtain ⟨m, hm, hid⟩ := List.mem_map.mp ha
    have hfound : e.message? e.nextId = some m := by
      rw [← hab, ← hid]
      exact message?_of_mem h.nodup hm
    rw [h.nextId_unused.1.message] at hfound
    simp at hfound
  · rw [Happening.about_append]
    rcases h.accept_at d now id with ⟨hagrees, habout⟩ | ⟨rfl, -, hpast, habout, hat⟩
    · obtain ⟨v, hat, hlife⟩ := h.life id
      rw [habout, List.append_nil]
      exact ⟨v, hat.congr hagrees, hlife⟩
    · -- The life of the new message begins where its draft says.
      have hleads : (firstHandle d e.nextId now).LeadsTo d.priority := by
        unfold firstHandle
        split <;> exact rfl
      rw [habout, hpast]
      exact ⟨_, hat, .made rfl ⟨rfl, rfl, rfl⟩ hr (firstHandle_isIdle d _ now) hleads⟩
  · rw [List.foldl_append, ← h.tally w]
    unfold Engine.accept
    split <;> rfl
  · rw [hcount] at hk
    obtain ⟨hat, hnone⟩ := h.unused k (by omega)
    rw [hsupply, Happening.about_append, hnone]
    rcases h.accept_at d now (e.idSupply.id .message k) with ⟨hagrees, habout⟩ | ⟨hid, -⟩
    · rw [habout]
      exact ⟨hat.congr hagrees, rfl⟩
    · -- The supply gives no id twice, and the one that was just given is that of `e.made + 1`.
      obtain ⟨-, hsame⟩ := e.idSupply.unique hid
      omega

/-- A change that makes one message, or none. -/
inductive Receives (e : Engine) (now : Instant) : List Happening → Engine → Prop where
  | nothing {e' : Engine} (hae : e.Alike e') (htally : ∀ w, e'.tally w = e.tally w) :
      Receives e now [] e'
  /-- The message is accepted beside a change of nothing that messages depend on. -/
  | message {e₁ : Engine} (hae : e.Alike e₁) (htally : ∀ w, e₁.tally w = e.tally w) (d : Draft)
      (hr : e.Routes (d.toMessage e₁.nextId now)) :
      Receives e now [.made (e₁.accept d now).2] (e₁.accept d now).1

/-- Lives go on, and one may begin. -/
theorem Sound.receives {e₀ e e' : Engine} {past hs : List Happening} {now : Instant}
    (h : Sound e₀ e past) (hr : Receives e now hs e') : Sound e₀ e' (past ++ hs) := by
  cases hr with
  | nothing hae htally =>
    rw [List.append_nil]
    exact h.alike hae htally
  | message hae htally d hr =>
    exact (h.alike hae htally).accept d now (hr.of_eq h.templates.symm h.specs.symm)

/-- Where a message is received nothing else is seen, and the other ids stay where they are. -/
theorem Sound.receives_at {e₀ e e' : Engine} {past hs : List Happening} {now : Instant}
    (h : Sound e₀ e past) (hr : Receives e now hs e') (id : String) :
    (e.Agrees e' id ∧ Happening.about id hs = []) ∨
    ∃ d : Draft, e.At id ⟨none, none⟩ ∧ Happening.about id past = [] ∧
      Happening.about id hs = [.made (d.toMessage id now)] ∧
      e'.At id ⟨some (d.toMessage id now), some (firstHandle d id now)⟩ := by
  cases hr with
  | nothing hae => exact .inl ⟨hae.agrees id, rfl⟩
  | @message e₁ hae htally d =>
    rcases (h.alike hae htally).accept_at d now id with
      ⟨hagrees, habout⟩ | ⟨hid, -, hpast, habout, hat⟩
    · exact .inl ⟨(hae.agrees id).trans hagrees, habout⟩
    · -- The next id is that of the engine itself, as what comes before leaves supply and number
      -- alone.
      have hsame : id = e.nextId := by
        rw [hid]
        unfold nextId
        rw [hae.made, hae.idSupply]
      exact .inr ⟨d, hsame ▸ h.nextId_unused.1, hpast, habout, hat⟩

end Engine

end Klaxon
