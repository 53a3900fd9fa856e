import Klaxon.Proofs.Rule.RuleSets

/-!
# What an event does to rules

`RuleSet.process` goes from rule to rule and hands the times of the last triggers on. Since the ids
differ, what one rule writes there no other one reads: `process_spec` says what an event does to
each rule by itself, which rules trigger, and what is remembered of each id afterwards.
-/

namespace Klaxon

/-- Whether a rule is about an event: it is enabled, looks at events of the type, and its condition
is true of the data. -/
structure Rule.Matches (r : Rule) (event : Event) : Prop where
  enabled : r.enabled = true
  fits : r.fitsEventType event.eventType = true
  holds : r.condition.evaluate event.data = true

instance (r : Rule) (event : Event) : Decidable (r.Matches event) :=
  decidable_of_iff
    (r.enabled = true ∧ r.fitsEventType event.eventType = true ∧
      r.condition.evaluate event.data = true)
    ⟨fun ⟨henabled, hfits, hholds⟩ => ⟨henabled, hfits, hholds⟩,
      fun ⟨henabled, hfits, hholds⟩ => ⟨henabled, hfits, hholds⟩⟩

namespace RuleSet

/-- Whether a rule triggers on an event, given the times of the last triggers. -/
def fires (event : Event) (now : Instant) (lastFired : List (String × Instant))
    (l : LoadedRule) : Bool :=
  isApplicable l.rule event && (l.rule.evaluate event.data && !isSuppressed l.rule lastFired now)

/-- A rule after an event. -/
def noted (event : Event) (now : Instant) (lastFired : List (String × Instant))
    (l : LoadedRule) : LoadedRule :=
  (processOne event now lastFired l).1

/-! ## One rule -/

/-- A rule triggers if it matches the event and its cooldown does not hold it back. -/
theorem fires_iff {event : Event} {now : Instant} {lastFired : List (String × Instant)}
    {l : LoadedRule} :
    fires event now lastFired l = true ↔
      l.rule.Matches event ∧ isSuppressed l.rule lastFired now = false := by
  simp only [fires, isApplicable, Rule.evaluate, Bool.and_eq_true, Bool.not_eq_true']
  constructor
  · rintro ⟨⟨henabled, hfits⟩, ⟨-, hholds⟩, hsuppressed⟩
    exact ⟨⟨henabled, hfits, hholds⟩, hsuppressed⟩
  · rintro ⟨⟨henabled, hfits, hholds⟩, hsuppressed⟩
    exact ⟨⟨henabled, hfits⟩, ⟨henabled, hholds⟩, hsuppressed⟩

/-- An event leaves the definition of a rule as it is. -/
theorem rule_noted (event : Event) (now : Instant) (lastFired : List (String × Instant))
    (l : LoadedRule) : (noted event now lastFired l).rule = l.rule :=
  rule_processOne event now lastFired l

/-- What an event does to one rule. -/
theorem processOne_eq (event : Event) (now : Instant) (lastFired : List (String × Instant))
    (l : LoadedRule) :
    processOne event now lastFired l =
      (noted event now lastFired l,
        if fires event now lastFired l then noteFired lastFired l.rule.id now else lastFired,
        fires event now lastFired l) := by
  unfold noted fires processOne
  cases isApplicable l.rule event with
  | false => rfl
  | true => cases l.rule.evaluate event.data && !isSuppressed l.rule lastFired now <;> rfl

/-- A rule reads of the last triggers only what is remembered of its own id. -/
theorem processOne_congr {event : Event} {now : Instant} {lf lf' : List (String × Instant)}
    {l : LoadedRule} (h : lf.lookup l.rule.id = lf'.lookup l.rule.id) :
    noted event now lf l = noted event now lf' l ∧
      fires event now lf l = fires event now lf' l := by
  have hsuppressed : isSuppressed l.rule lf now = isSuppressed l.rule lf' now := by
    simp only [isSuppressed, h]
  have hfires : fires event now lf l = fires event now lf' l := by
    simp only [fires, hsuppressed]
  refine ⟨?_, hfires⟩
  simp only [noted, processOne, hsuppressed]
  -- A rule that does not look at the event is as it was; any other one counts, fired or not.
  split
  · split <;> rfl
  · rfl

/-- A rule that triggers counts the evaluation and the trigger. -/
theorem noted_of_fires {event : Event} {now : Instant} {lastFired : List (String × Instant)}
    {l : LoadedRule} (h : fires event now lastFired l = true) :
    noted event now lastFired l =
      ⟨l.rule, ⟨l.stats.evaluationCount + 1, l.stats.triggerCount + 1, some now⟩⟩ := by
  obtain ⟨happlicable, hevaluated⟩ := Bool.and_eq_true_iff.mp h
  simp only [noted, processOne, happlicable, hevaluated, if_true]

/-- A rule that looks at the event and does not trigger counts the evaluation only. -/
theorem noted_of_not_fires {event : Event} {now : Instant} {lastFired : List (String × Instant)}
    {l : LoadedRule} (happlicable : isApplicable l.rule event = true)
    (h : fires event now lastFired l = false) :
    noted event now lastFired l =
      ⟨l.rule, { l.stats with evaluationCount := l.stats.evaluationCount + 1 }⟩ := by
  rw [fires, happlicable, Bool.true_and] at h
  simp only [noted, processOne, happlicable, h, if_true, Bool.false_eq_true, if_false]

/-! ## What is remembered of an id -/

/-- What is taken out under one id is not there any more; the other ids are as they were. -/
theorem lookup_filter_ne (lastFired : List (String × Instant)) (id id' : String) :
    (lastFired.filter fun f => f.1 != id).lookup id' =
      if id' = id then none else lastFired.lookup id' := by
  induction lastFired with
  | nil => simp
  | cons f rest ih =>
    obtain ⟨key, fired⟩ := f
    -- An entry of the id is gone; any other one is found as before.
    by_cases hkey : key = id
    · rw [List.filter_cons_of_neg (by simp [hkey]), ih, List.lookup_cons]
      by_cases hid : id' = id
      · simp [hid]
      · have hne : (id' == key) = false := by simp [hkey, hid]
        simp only [hid, if_false, hne]
    · rw [List.filter_cons_of_pos (by simp [hkey]), List.lookup_cons, List.lookup_cons, ih]
      by_cases hid : id' = key
      · simp [hid, hkey]
      · have hne : (id' == key) = false := by simp [hid]
        simp only [hne]

/-- What is noted under one id is found there; the other ids are as they were. -/
theorem lookup_noteFired (lastFired : List (String × Instant)) (id id' : String) (now : Instant) :
    (noteFired lastFired id now).lookup id' =
      if id' = id then some now else lastFired.lookup id' := by
  rw [noteFired, List.lookup_cons, lookup_filter_ne]
  by_cases hid : id' = id
  · simp [hid]
  · have hne : (id' == id) = false := by simp [hid]
    simp only [hid, if_false, hne]

/-! ## All rules -/

/-- What an event does to rules with distinct ids, one after the other. -/
theorem processAll_spec (event : Event) (now : Instant) (rules : List LoadedRule) :
    ∀ lf : List (String × Instant), (rules.map fun l => l.rule.id).Nodup →
      (processAll event now lf rules).1 = rules.map (noted event now lf) ∧
      (processAll event now lf rules).2.2 =
        (rules.filter (fires event now lf)).map (fun l => ⟨noted event now lf l, now⟩) ∧
      ∀ id, (processAll event now lf rules).2.1.lookup id =
        if rules.any (fun l => l.rule.id == id && fires event now lf l) then some now
        else lf.lookup id := by
  induction rules with
  | nil => exact fun lf _ => ⟨rfl, rfl, fun id => by simp [processAll]⟩
  | cons l rest ih =>
    intro lf hn
    rw [List.map_cons, List.nodup_cons] at hn
    obtain ⟨hnew, hn⟩ := hn
    generalize hlf : (if fires event now lf l then noteFired lf l.rule.id now else lf) = lf₁
    have hlookup : ∀ id, lf₁.lookup id =
        if l.rule.id == id && fires event now lf l then some now else lf.lookup id := by
      intro id
      subst hlf
      cases fires event now lf l with
      | false => simp
      | true =>
        simp only [if_true, Bool.and_true, lookup_noteFired, beq_iff_eq]
        exact if_congr eq_comm rfl rfl
    -- The rules behind this one have other ids, so they find what they found before.
    have hrest : ∀ l' ∈ rest, noted event now lf₁ l' = noted event now lf l' ∧
        fires event now lf₁ l' = fires event now lf l' := by
      intro l' hl'
      have hne : l.rule.id ≠ l'.rule.id := fun h => hnew (h ▸ List.mem_map_of_mem hl')
      refine processOne_congr ?_
      rw [hlookup]
      simp [hne]
    have hfilter : rest.filter (fires event now lf₁) = rest.filter (fires event now lf) :=
      List.filter_congr fun l' hl' => (hrest l' hl').2
    have hany : ∀ id, rest.any (fun l' => l'.rule.id == id && fires event now lf₁ l') =
        rest.any (fun l' => l'.rule.id == id && fires event now lf l') := by
      intro id
      rw [Bool.eq_iff_iff, List.any_eq_true, List.any_eq_true]
      refine exists_congr fun l' => and_congr_right fun hl' => ?_
      rw [(hrest l' hl').2]
    obtain ⟨hrules, htriggered, hlast⟩ := ih lf₁ hn
    simp only [processAll, processOne_eq, hlf]
    refine ⟨?_, ?_, fun id => ?_⟩
    · rw [hrules, List.map_cons, List.map_congr_left fun l' hl' => (hrest l' hl').1]
    · rw [htriggered, hfilter, List.filter_cons]
      have hmap : (rest.filter (fires event now lf)).map
            (fun l' => (⟨noted event now lf₁ l', now⟩ : TriggeredRule)) =
          (rest.filter (fires event now lf)).map fun l' => ⟨noted event now lf l', now⟩ := by
        refine List.map_congr_left fun l' hl' => ?_
        rw [(hrest l' (List.mem_filter.mp hl').1).1]
      rw [hmap]
      cases fires event now lf l <;> simp
    · rw [hlast, hany, hlookup, List.any_cons]
      cases l.rule.id == id && fires event now lf l <;> simp

/-- What an event does to a rule set with distinct ids: each rule takes note of it by itself, the
rules that fire are given in their order, and they alone are remembered with this time. -/
theorem process_spec {s : RuleSet} (hn : (s.rules.map fun l => l.rule.id).Nodup) (event : Event)
    (now : Instant) :
    (s.process event now).1.rules = s.rules.map (noted event now s.lastFired) ∧
    (s.process event now).2 = (s.rules.filter (fires event now s.lastFired)).map
      (fun l => ⟨noted event now s.lastFired l, now⟩) ∧
    ∀ id, (s.process event now).1.lastFired.lookup id =
      if s.rules.any (fun l => l.rule.id == id && fires event now s.lastFired l) then some now
      else s.lastFired.lookup id :=
  processAll_spec event now s.rules s.lastFired hn

end RuleSet

end Klaxon
