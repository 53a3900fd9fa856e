import Klaxon.Server.Timeline

/-!
# What a server does next

`Server.nextMove?` looks at the timers, the open calls, the ticker, the prunings and the drain, in
this order. What it picks can be done now (`isDue_of_nextMove?`), and where it picks nothing,
nothing can be done (`isIdle_of_nextMove?`): then the next instant at which something happens lies
ahead.
-/

namespace Klaxon

namespace Server

variable {s : Server}

/-- Among some items there is an earliest one. -/
theorem earliest?_isSome {α : Type} (time : α → Instant) {items : List α} (h : items ≠ []) :
    ∃ a, earliest? time items = some a := by
  cases items with
  | nil => exact absurd rfl h
  | cons b rest =>
    unfold earliest?
    split
    · exact ⟨b, rfl⟩
    · split
      · exact ⟨_, rfl⟩
      · exact ⟨_, rfl⟩

/-- What is not due now is due later. -/
theorem lt_of_dueNow?_eq_none {α : Type} {time : α → Instant} {items : List α}
    (h : s.dueNow? time items = none) : ∀ a ∈ items, s.now < time a := by
  intro a ha
  obtain ⟨first, hfirst⟩ := earliest?_isSome time (List.ne_nil_of_mem ha)
  have hle := (mem_and_le_of_earliest?_eq_some hfirst).2 a ha
  unfold dueNow? at h
  rw [hfirst] at h
  simp only at h
  split at h
  · simp at h
  · next hlate =>
    rw [Instant.le_def] at hle hlate
    rw [Instant.lt_def]
    omega

/-- What is due now is one of the items, and not due later. -/
theorem mem_and_le_of_dueNow? {α : Type} {time : α → Instant} {items : List α} {a : α}
    (h : s.dueNow? time items = some a) : a ∈ items ∧ time a ≤ s.now := by
  unfold dueNow? at h
  split at h
  · next first hfirst =>
    split at h
    · next hle =>
      obtain rfl := Option.some.inj h
      exact ⟨(mem_and_le_of_earliest?_eq_some hfirst).1, hle⟩
    · simp at h
  · simp at h

/-- A move can be made now. -/
def IsDue (s : Server) : Move → Prop
  | .fire timer => timer ∈ s.engine.timers
  | .answer call => call ∈ s.calls
  | .tick t => s.ticker = some t ∧ t.next ≤ s.now
  | .drainOnTick t => s.ticker = some t ∧ t.drain.isReady s.calls = true
  | .prune p => p ∈ s.pruners ∧ p.next ≤ s.now
  | .drain => s.drain.isReady s.calls = true

/-- What the ticker does now can be done now. -/
theorem isDue_of_tickerMove? {m : Move} (h : s.tickerMove? = some m) : s.IsDue m := by
  unfold tickerMove? at h
  split at h
  · simp at h
  · next t ht =>
    split at h
    · next hready =>
      obtain rfl := Option.some.inj h
      exact ⟨ht, hready⟩
    · split at h
      · next hdue =>
        obtain rfl := Option.some.inj h
        rw [Bool.and_eq_true, decide_eq_true_eq] at hdue
        exact ⟨ht, hdue.2⟩
      · simp at h

/-- What happens next can be done now. -/
theorem isDue_of_nextMove? {m : Move} (h : s.nextMove? = some m) : s.IsDue m := by
  -- The kinds of moves are looked through in their order, and each hands out what is due.
  unfold nextMove? at h
  split at h
  · next t ht =>
    obtain rfl := Option.some.inj h
    exact (mem_and_le_of_dueNow? ht).1
  · split at h
    · next call hcall =>
      obtain rfl := Option.some.inj h
      exact (mem_and_le_of_dueNow? hcall).1
    · split at h
      · next m' hm' =>
        obtain rfl := Option.some.inj h
        exact isDue_of_tickerMove? hm'
      · split at h
        · next p hp =>
          obtain rfl := Option.some.inj h
          exact mem_and_le_of_dueNow? hp
        · split at h
          · next hready =>
            obtain rfl := Option.some.inj h
            exact hready
          · simp at h

/-- Nothing can be done now. -/
structure IsIdle (s : Server) : Prop where
  timers : ∀ t ∈ s.engine.timers, s.now < t.due
  calls : ∀ call ∈ s.calls, s.now < call.due
  ticker : s.tickerMove? = none
  pruners : ∀ p ∈ s.pruners, s.now < p.next
  drain : s.drain.isReady s.calls = false

/-- Where nothing happens next, nothing can be done. -/
theorem isIdle_of_nextMove? (h : s.nextMove? = none) : s.IsIdle := by
  -- The choice falls through only where each kind of move has nothing to offer.
  unfold nextMove? at h
  split at h
  · simp at h
  · next htimers =>
    split at h
    · simp at h
    · next hcalls =>
      split at h
      · simp at h
      · next hticker =>
        split at h
        · simp at h
        · next hpruners =>
          split at h
          · simp at h
          · next hdrain =>
            exact ⟨lt_of_dueNow?_eq_none htimers, lt_of_dueNow?_eq_none hcalls, hticker,
              lt_of_dueNow?_eq_none hpruners, Bool.not_eq_true _ ▸ hdrain⟩

/-- The next instant at which something happens lies ahead. -/
theorem IsIdle.lt_nextTime? (h : s.IsIdle) {t : Instant} (ht : s.nextTime? = some t) :
    s.now < t := by
  have hmem := (mem_and_le_of_earliest?_eq_some ht).1
  simp only [List.mem_append, List.mem_map, Option.mem_toList] at hmem
  rcases hmem with ((⟨timer, htimer, rfl⟩ | ⟨call, hcall, rfl⟩) | htick) | ⟨p, hp, rfl⟩
  · exact h.timers timer htimer
  · exact h.calls call hcall
  · -- A tick that were due would be next.
    have hticker := h.ticker
    unfold tickTime? at htick
    unfold tickerMove? at hticker
    cases hs : s.ticker with
    | none => simp [hs] at htick
    | some ticker =>
      rw [hs] at htick hticker
      simp only at htick hticker
      split at htick
      · next hon =>
        obtain rfl := Option.some.inj htick
        rw [Bool.and_eq_true] at hon
        split at hticker
        · simp at hticker
        · split at hticker
          · simp at hticker
          · next hlate =>
            rw [Bool.and_eq_true, decide_eq_true_eq] at hlate
            have hnot : ¬ ticker.next ≤ s.now := fun hle => hlate ⟨hon.1, hle⟩
            rw [Instant.le_def] at hnot
            rw [Instant.lt_def]
            omega
      · simp at htick
  · exact h.pruners p hp

/-- While a call is open, there is such an instant, and it is not behind the answer of the call. -/
theorem exists_nextTime? {call : OpenCall} (h : call ∈ s.calls) :
    ∃ t, s.nextTime? = some t ∧ t ≤ call.due := by
  have hmem : call.due ∈ s.engine.timers.map Timer.due ++ s.calls.map OpenCall.due ++
      s.tickTime?.toList ++ s.pruners.map Pruner.next := by
    simp only [List.mem_append]
    exact .inl (.inl (.inr (List.mem_map_of_mem h)))
  obtain ⟨t, ht⟩ := earliest?_isSome id (List.ne_nil_of_mem hmem)
  exact ⟨t, ht, (mem_and_le_of_earliest?_eq_some ht).2 _ hmem⟩

end Server

end Klaxon
