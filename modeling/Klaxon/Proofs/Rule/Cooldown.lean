import Klaxon.Proofs.Rule.Events

/-!
# Cooldowns

An observer of a run remembers of each rule when it triggered last, and forgets that when the rule
is removed or all rules are replaced (`RuleSet.lastTrigger?`). `run_cooldownsHold` says that a rule
which matches an event triggers unless less than its cooldown has passed since then. So two triggers
in a row are at least the cooldown apart, whatever times the events have and whatever became of the
rules in between, and a match that is held back leaves no trace but one more evaluation.

The rule set itself keeps the times of the last triggers apart from the rules. `lookup_run` shows
that what it finds there is what the observer remembers, one operation at a time (`lookup_perform`).
-/

namespace Klaxon

/-- Whether a rule is still cooling down from its last trigger. -/
def Rule.IsCooling (r : Rule) (last? : Option Instant) (now : Instant) : Prop :=
  0 < r.cooldownSecs.toNat ∧
    ∃ last, last? = some last ∧ now.elapsed last < r.cooldownSecs.toNat * Time.second

instance (r : Rule) (last? : Option Instant) (now : Instant) :
    Decidable (r.IsCooling last? now) :=
  match last? with
  | none => .isFalse fun ⟨_, _, h, _⟩ => nomatch h
  | some last =>
    decidable_of_iff
      (0 < r.cooldownSecs.toNat ∧ now.elapsed last < r.cooldownSecs.toNat * Time.second)
      ⟨fun ⟨hpos, hlt⟩ => ⟨hpos, last, rfl, hlt⟩,
        fun ⟨hpos, _, hlast, hlt⟩ => ⟨hpos, Option.some.inj hlast ▸ hlt⟩⟩

namespace RuleSet

/-- Whether a rule triggers when an event comes. -/
def triggers (s : RuleSet) (id : String) (event : Event) (now : Instant) : Bool :=
  (s.process event now).2.any fun t => t.loaded.rule.id == id

/-- The rules that an event sets off, in their order. -/
def due (s : RuleSet) (event : Event) (now : Instant) : List Rule :=
  s.definitions.filter fun r => r.Matches event ∧ ¬ r.IsCooling (s.lastFired.lookup r.id) now

/-- What an observer remembers of the last trigger of a rule after an operation. -/
def remembered (s : RuleSet) (id : String) (last? : Option Instant) : Operation → Option Instant
  | .load _ | .replace _ => none
  | .remove removed => if id = removed then none else last?
  | .process event now => if s.triggers id event now then some now else last?
  | .add _ | .update _ | .setEnabled .. => last?

/-- What an observer remembers of the last trigger of a rule after operations. -/
def lastTrigger? (s : RuleSet) (id : String) (last? : Option Instant) :
    List Operation → Option Instant
  | [] => last?
  | op :: ops => (s.perform op).1.lastTrigger? id (s.remembered id last? op) ops

/-- Whether a rule is neither triggered nor removed by operations, nor replaced with all rules. -/
def IsQuiet (s : RuleSet) (id : String) : List Operation → Prop
  | [] => True
  | op :: ops =>
    (match op with
      | .load _ | .replace _ => False
      | .remove removed => id ≠ removed
      | .process event now => s.triggers id event now = false
      | .add _ | .update _ | .setEnabled .. => True) ∧
      (s.perform op).1.IsQuiet id ops

/-- What the cooldowns of the rules do after a run. -/
structure CooldownsHold (ops : List Operation) : Prop where
  /-- A rule triggers on an event if it matches and is not cooling down. -/
  triggers_iff : ∀ l ∈ (empty.run ops).rules, ∀ event now,
    (empty.run ops).triggers l.rule.id event now = true ↔
      l.rule.Matches event ∧ ¬ l.rule.IsCooling (empty.lastTrigger? l.rule.id none ops) now
  /-- From one trigger of a rule to the next one the cooldown passes that the rule then has. -/
  apart : ∀ before first t₁ between, ops = before ++ .process first t₁ :: between →
    ∀ l ∈ (empty.run ops).rules, 0 < l.rule.cooldownSecs.toNat →
      (empty.run before).triggers l.rule.id first t₁ = true →
      (((empty.run before).process first t₁).1).IsQuiet l.rule.id between →
      ∀ next t₂, (empty.run ops).triggers l.rule.id next t₂ = true →
        l.rule.cooldownSecs.toNat * Time.second ≤ t₂.elapsed t₁
  /-- A rule that matches and does not trigger counts one evaluation, and nothing else of it and of
  its last trigger changes. -/
  suppressed : ∀ l ∈ (empty.run ops).rules, ∀ event now, l.rule.Matches event →
    (empty.run ops).triggers l.rule.id event now = false →
      ((empty.run ops).process event now).1.get? l.rule.id =
        some ⟨l.rule, { l.stats with evaluationCount := l.stats.evaluationCount + 1 }⟩ ∧
      ((empty.run ops).process event now).1.lastFired.lookup l.rule.id =
        (empty.run ops).lastFired.lookup l.rule.id

/-! ## Events -/

/-- A rule triggers if one with its id fires. -/
theorem triggers_eq_any {s : RuleSet} (hn : (s.rules.map fun l => l.rule.id).Nodup) (id : String)
    (event : Event) (now : Instant) :
    s.triggers id event now =
      s.rules.any fun l => l.rule.id == id && fires event now s.lastFired l := by
  rw [triggers, (process_spec hn event now).2.1, List.any_map, List.any_filter]
  refine congrArg (s.rules.any ·) (funext fun l => ?_)
  rw [Function.comp, rule_noted, Bool.and_comm]

/-- A rule triggers if it fires. -/
theorem WellKept.triggers_eq {s : RuleSet} (h : s.WellKept) {l : LoadedRule} (hl : l ∈ s.rules)
    (event : Event) (now : Instant) :
    s.triggers l.rule.id event now = fires event now s.lastFired l := by
  rw [triggers_eq_any h.nodup_ids, Bool.eq_iff_iff, List.any_eq_true]
  constructor
  · -- No other rule has this id.
    rintro ⟨l', hl', hfires⟩
    obtain ⟨hid, hfires⟩ := Bool.and_eq_true_iff.mp hfires
    have hsame := List.inj_on_of_nodup_map h.nodup_ids hl' hl (beq_iff_eq.mp hid)
    exact hsame ▸ hfires
  · exact fun hfires => ⟨l, hl, by simp [hfires]⟩

/-- The cooldown of a valid rule that triggered before holds it back until it has passed. -/
theorem isSuppressed_iff {r : Rule} (h : r.validate = .ok ()) (lastFired : List (String × Instant))
    (now : Instant) :
    isSuppressed r lastFired now = true ↔ r.IsCooling (lastFired.lookup r.id) now := by
  -- A cooldown that does not fit a duration would never end, but a valid one is short.
  have hshort : ¬ 9223372036854775 < r.cooldownSecs.toNat := by
    have := Rule.cooldownSecs_le_of_validate h
    omega
  unfold isSuppressed Rule.IsCooling
  cases lastFired.lookup r.id with
  | none => simp
  | some last =>
    by_cases hzero : r.cooldownSecs = 0
    · simp [inCooldown, hzero]
    · have hpos : 0 < r.cooldownSecs.toNat := by
        refine Nat.pos_of_ne_zero fun h0 => hzero ?_
        exact UInt64.toNat_inj.mp h0
      simp [inCooldown, hzero, hshort, hpos]

/-- A rule triggers if it matches the event and is not cooling down. -/
theorem WellKept.triggers_iff {s : RuleSet} (h : s.WellKept) {l : LoadedRule} (hl : l ∈ s.rules)
    (event : Event) (now : Instant) :
    s.triggers l.rule.id event now = true ↔
      l.rule.Matches event ∧ ¬ l.rule.IsCooling (s.lastFired.lookup l.rule.id) now := by
  rw [h.triggers_eq hl, fires_iff, ← isSuppressed_iff (h.mem_valid hl), Bool.not_eq_true]

/-- The rules that an event sets off are those that match it and are not cooling down. -/
theorem WellKept.process_due {s : RuleSet} (h : s.WellKept) (event : Event) (now : Instant) :
    (s.process event now).2.map (fun t => t.loaded.rule) = s.due event now := by
  rw [(process_spec h.nodup_ids event now).2.1, List.map_map, due, definitions, List.filter_map]
  have hfires : s.rules.filter (fires event now s.lastFired) =
      s.rules.filter ((fun r => decide (r.Matches event ∧
        ¬ r.IsCooling (s.lastFired.lookup r.id) now)) ∘ LoadedRule.rule) := by
    refine List.filter_congr fun l hl => ?_
    rw [Bool.eq_iff_iff, fires_iff, ← Bool.not_eq_true, isSuppressed_iff (h.mem_valid hl),
      Function.comp, decide_eq_true_iff]
  rw [hfires]
  exact List.map_congr_left fun l _ => rule_noted event now s.lastFired l

/-- The rules that an event sets off stand in the order of all rules. -/
theorem WellKept.due_ordered {s : RuleSet} (h : s.WellKept) (event : Event) (now : Instant) :
    (s.due event now).Pairwise Rule.Precedes :=
  h.ordered.sublist List.filter_sublist

/-- A rule that matches and does not trigger counts one evaluation, and nothing else of it and of
its last trigger changes. -/
theorem WellKept.process_of_not_triggers {s : RuleSet} (h : s.WellKept) {l : LoadedRule}
    (hl : l ∈ s.rules) {event : Event} {now : Instant} (hmatches : l.rule.Matches event)
    (hnot : s.triggers l.rule.id event now = false) :
    (s.process event now).1.get? l.rule.id =
        some ⟨l.rule, { l.stats with evaluationCount := l.stats.evaluationCount + 1 }⟩ ∧
      (s.process event now).1.lastFired.lookup l.rule.id = s.lastFired.lookup l.rule.id := by
  obtain ⟨hrules, -, hlast⟩ := process_spec h.nodup_ids event now
  have hfires : fires event now s.lastFired l = false := by rw [← h.triggers_eq hl, hnot]
  have happlicable : isApplicable l.rule event = true := by
    rw [isApplicable, hmatches.enabled, hmatches.fits, Bool.and_self]
  have hafter := noted_of_not_fires happlicable hfires
  constructor
  · -- What is found under the id afterwards is this rule, as it is noted.
    have hmem : noted event now s.lastFired l ∈ (s.process event now).1.rules :=
      hrules ▸ List.mem_map_of_mem hl
    have hkept := h.congr (definitions_process s event now)
    have hsome : ((s.process event now).1.get? l.rule.id).isSome = true := by
      refine List.find?_isSome.mpr ⟨_, hmem, ?_⟩
      rw [rule_noted, beq_self_eq_true]
    obtain ⟨l', hl'⟩ := Option.isSome_iff_exists.mp hsome
    have hsame := hkept.eq_of_get? hl' hmem (by rw [rule_noted])
    rw [hl', ← hsame, hafter]
  · have hnone := triggers_eq_any h.nodup_ids l.rule.id event now
    rw [hlast, ← hnone, hnot]
    simp

/-! ## What is remembered -/

/-- Adding a rule leaves the times of the last triggers as they are. -/
theorem lastFired_add (s : RuleSet) (rule : Rule) : (s.add rule).1.lastFired = s.lastFired := by
  simp only [add]
  cases rule.validate with
  | error e => rfl
  | ok u => cases (s.get? rule.id).isSome <;> rfl

/-- An update leaves the times of the last triggers as they are. -/
theorem lastFired_update (s : RuleSet) (rule : Rule) :
    (s.update rule).1.lastFired = s.lastFired := by
  simp only [update]
  cases rule.validate with
  | error e => rfl
  | ok u => cases (s.get? rule.id).isSome <;> rfl

/-- Switching a rule on or off leaves the times of the last triggers as they are. -/
theorem lastFired_setEnabled (s : RuleSet) (id : String) (enabled : Bool) :
    (s.setEnabled id enabled).1.lastFired = s.lastFired := by
  simp only [setEnabled]
  cases s.get? id with
  | none => rfl
  | some l =>
    dsimp only
    split <;> rfl

/-- Rules that are loaded have not triggered. -/
theorem lastFired_load (rules : List Rule) : (load rules).1.lastFired = [] := by
  unfold load
  refine List.foldlRecOn rules _
    (motive := fun acc : RuleSet × List RuleError => acc.1.lastFired = []) rfl ?_
  rintro ⟨s, errors⟩ h rule -
  have hadd := lastFired_add s rule
  dsimp only at h hadd ⊢
  split
  · next heq => rw [heq] at hadd; exact hadd.trans h
  · next heq => rw [heq] at hadd; exact hadd.trans h

/-- What is kept of the last trigger of a rule changes in an operation as an observer expects. -/
theorem WellKept.lookup_perform {s : RuleSet} (h : s.WellKept) (op : Operation) (id : String) :
    (s.perform op).1.lastFired.lookup id = s.remembered id (s.lastFired.lookup id) op := by
  cases op with
  | load rules => simp only [RuleSet.perform, remembered, lastFired_load, List.lookup_nil]
  | replace rules =>
    simp only [RuleSet.perform, remembered, RuleSet.replace, lastFired_load, List.lookup_nil]
  | add rule => simp only [RuleSet.perform, remembered, lastFired_add]
  | update rule => simp only [RuleSet.perform, remembered, lastFired_update]
  | setEnabled id' enabled => simp only [RuleSet.perform, remembered, lastFired_setEnabled]
  | remove removed => exact lookup_filter_ne s.lastFired removed id
  | process event now =>
    simp only [RuleSet.perform, remembered, (process_spec h.nodup_ids event now).2.2,
      triggers_eq_any h.nodup_ids]

/-- After a run the rule set knows of the last trigger of a rule what an observer remembers. -/
theorem WellKept.lookup_run {s : RuleSet} (h : s.WellKept) (ops : List Operation) (id : String) :
    (s.run ops).lastFired.lookup id = s.lastTrigger? id (s.lastFired.lookup id) ops := by
  induction ops generalizing s with
  | nil => rfl
  | cons op ops ih => rw [RuleSet.run, lastTrigger?, ih (h.perform op), h.lookup_perform]

/-- What an observer remembers of two runs is remembered of the first and then of the second. -/
theorem lastTrigger?_append (s : RuleSet) (id : String) (last? : Option Instant)
    (ops ops' : List Operation) :
    s.lastTrigger? id last? (ops ++ ops') =
      (s.run ops).lastTrigger? id (s.lastTrigger? id last? ops) ops' := by
  induction ops generalizing s last? with
  | nil => rfl
  | cons op ops ih => exact ih (s.perform op).1 (s.remembered id last? op)

/-- While a rule is quiet, nothing new is remembered of it. -/
theorem lastTrigger?_of_isQuiet {s : RuleSet} {id : String} {ops : List Operation}
    (h : s.IsQuiet id ops) (last? : Option Instant) : s.lastTrigger? id last? ops = last? := by
  induction ops generalizing s with
  | nil => rfl
  | cons op ops ih =>
    obtain ⟨hop, hrest⟩ := h
    have hsame : s.remembered id last? op = last? := by
      cases op with
      | load rules => exact hop.elim
      | replace rules => exact hop.elim
      | add rule => rfl
      | update rule => rfl
      | setEnabled id' enabled => rfl
      | remove removed => exact if_neg hop
      | process event now => simp only [remembered, hop, Bool.false_eq_true, if_false]
    rw [lastTrigger?, hsame, ih hrest]

/-- After every run, a rule that matches an event triggers unless less than its cooldown has passed
since its last trigger after the latest removal or replacement; the cooldown passes between one
trigger and the next one; and a match that is held back changes neither the time of the last trigger
nor the number of triggers. -/
theorem run_cooldownsHold (ops : List Operation) : CooldownsHold ops := by
  have hkept := wellKept_empty.run ops
  have hlast : ∀ id, (empty.run ops).lastFired.lookup id = empty.lastTrigger? id none ops :=
    fun id => wellKept_empty.lookup_run ops id
  constructor
  · intro l hl event now
    rw [hkept.triggers_iff hl, hlast]
  · intro before first t₁ between hops l hl hpos hfirst hquiet next t₂ hnext
    -- At the second trigger the first one is remembered, since nothing in between replaced it.
    have hremembered : empty.lastTrigger? l.rule.id none ops = some t₁ := by
      rw [hops, lastTrigger?_append, lastTrigger?]
      have hquiet' : (((empty.run before).perform (.process first t₁)).1).IsQuiet l.rule.id
          between := hquiet
      rw [lastTrigger?_of_isQuiet hquiet']
      simp only [remembered, hfirst, if_true]
    have hcool := ((hkept.triggers_iff hl next t₂).mp hnext).2
    rw [hlast, hremembered] at hcool
    by_contra hlt
    exact hcool ⟨hpos, t₁, rfl, by omega⟩
  · intro l hl event now hmatches hnot
    exact hkept.process_of_not_triggers hl hmatches hnot

/-- A rule about smoke that rests for a minute. -/
def smokeAlarm : Rule :=
  { id := "smoke", name := "Smoke", description := none, category := "safety", version := 1
    priority := .high, enabled := true, eventPattern := "*"
    condition := .comparison "smoke" .present .null, actions := [], cooldownSecs := 60 }

/-- An event with smoke. -/
def smoke : Event := ⟨"e1", "sensor", .epoch, .object [("smoke", .bool true)]⟩

example : (empty.run [.add smokeAlarm, .process smoke .epoch]).triggers "smoke" smoke
    (Instant.epoch.add (59 * Time.second)) = false := by decide +kernel

example : (empty.run [.add smokeAlarm, .process smoke .epoch]).triggers "smoke" smoke
    (Instant.epoch.add Time.minute) = true := by decide +kernel

end RuleSet

end Klaxon
