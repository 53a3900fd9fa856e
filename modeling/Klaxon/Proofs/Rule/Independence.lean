import Klaxon.Proofs.Rule.Bookkeeping

/-!
# Rules by themselves

An event passes all rules in one loop, and all of them note the times of their last triggers in one
table. `load_independent` says that a rule does not notice the others: two rule sets that have a
rule in common, and whatever else, give it at the same events and with the same statistics. What an
event sets off stands in the order of the rules, each of them once at most.

`only` leaves of a rule set what is there under one id. It commutes with events (`only_process`),
since a rule finds its last trigger under its own id and writes it there, whatever stands between.
So each run shows of an id what the run of that rule alone shows (`only_processEach`), and there is
nothing else in that run that two rule sets could differ in (`only_load`).
-/

namespace Klaxon

namespace RuleSet

/-- Evaluates the rules on events, one after the other; gives the rules that each event sets off. -/
def processEach (s : RuleSet) : List (Event × Instant) → RuleSet × List (List TriggeredRule)
  | [] => (s, [])
  | (event, now) :: calls =>
    let (s, triggered) := s.process event now
    let (s, rest) := s.processEach calls
    (s, triggered :: rest)

/-- The rules with an id among those that triggered. -/
def withId (id : String) (triggered : List TriggeredRule) : List TriggeredRule :=
  triggered.filter fun t => t.loaded.rule.id == id

/-- What is there under one id: its rules and their last triggers. -/
def only (s : RuleSet) (id : String) : RuleSet :=
  ⟨s.rules.filter fun l => l.rule.id == id, s.lastFired.filter fun f => f.1 == id⟩

/-- Two lists of rules cannot be told from each other by one of their rules, whatever events come
after they are loaded. -/
structure SameFor (r : Rule) (rules rules' : List Rule) (calls : List (Event × Instant)) :
    Prop where
  /-- The rule triggers on the same events, and is given with the same statistics. -/
  triggers : ((load rules).1.processEach calls).2.map (withId r.id) =
    ((load rules').1.processEach calls).2.map (withId r.id)
  /-- It ends with the same statistics. -/
  stats : ∃ stats : RuleStats,
    ((load rules).1.processEach calls).1.get? r.id = some ⟨r, stats⟩ ∧
      ((load rules').1.processEach calls).1.get? r.id = some ⟨r, stats⟩

/-- What events bring about in rules that were loaded. -/
structure Independent (rules : List Rule) : Prop where
  /-- To a rule that is loaded it does not matter which others are. -/
  same : ∀ r ∈ (load rules).1.definitions, ∀ rules', r ∈ (load rules').1.definitions →
    ∀ calls, SameFor r rules rules' calls
  /-- Whatever is done with the rules, what an event sets off stands in their order. -/
  ordered : ∀ ops event now,
    ((((load rules).1.run ops).process event now).2.map fun t => t.loaded.rule).Sublist
      ((load rules).1.run ops).definitions
  /-- An event sets no rule off twice. -/
  once : ∀ ops event now,
    ((((load rules).1.run ops).process event now).2.map fun t => t.loaded.rule.id).Nodup

/-! ## One id of many -/

/-- Where keys are distinct, there is one item at most for a key. -/
theorem filter_key_eq_toList {α : Type} {key : α → String} {xs : List α}
    (hn : (xs.map key).Nodup) (k : String) :
    (xs.filter fun x => key x == k) = (xs.find? fun x => key x == k).toList := by
  induction xs with
  | nil => rfl
  | cons x xs ih =>
    obtain ⟨hnew, hn⟩ := List.nodup_cons.mp hn
    rw [List.filter_cons, List.find?_cons]
    -- The head has the key, and then no other item does; or the search goes on.
    by_cases hk : key x = k
    · have hnone : (xs.filter fun y => key y == k) = [] := by
        refine List.filter_eq_nil_iff.mpr fun y hy hsame => hnew ?_
        rw [hk, ← beq_iff_eq.mp hsame]
        exact List.mem_map_of_mem hy
      simp [hk, hnone]
    · have hne : (key x == k) = false := beq_eq_false_iff_ne.mpr hk
      rw [hne]
      exact ih hn

/-- Under its own id a rule is found as before. -/
theorem get?_only (s : RuleSet) (id : String) : (s.only id).get? id = s.get? id := by
  rw [get?, get?, only, List.find?_filter]
  refine congrArg s.rules.find? (funext fun l => ?_)
  rw [Bool.decide_and, Bool.decide_eq_true, Bool.and_self]

/-- The times that are kept of other ids do not hide the one of an id. -/
theorem lookup_filter_eq (lastFired : List (String × Instant)) (id : String) :
    (lastFired.filter fun f => f.1 == id).lookup id = lastFired.lookup id := by
  induction lastFired with
  | nil => rfl
  | cons f rest ih =>
    obtain ⟨key, fired⟩ := f
    -- Either the entry stays and is found on both sides, or it is none that the search stops at.
    by_cases hkey : key = id
    · subst hkey
      simp
    · have hne : (id == key) = false := beq_eq_false_iff_ne.mpr (Ne.symm hkey)
      rw [List.filter_cons_of_neg (by simpa using hkey), ih, List.lookup_cons, hne]

/-- A trigger is noted under its own id. -/
theorem filter_noteFired (lastFired : List (String × Instant)) (id id' : String) (now : Instant) :
    (noteFired lastFired id' now).filter (fun f => f.1 == id) =
      if id' = id then noteFired (lastFired.filter fun f => f.1 == id) id' now
      else lastFired.filter fun f => f.1 == id := by
  have hcomm : (lastFired.filter fun f => f.1 != id').filter (fun f => f.1 == id) =
      (lastFired.filter fun f => f.1 == id).filter fun f => f.1 != id' := by
    rw [List.filter_filter, List.filter_filter]
    exact List.filter_congr fun f _ => Bool.and_comm _ _
  unfold noteFired
  -- The entry is kept under its own id, and leaves no trace under any other one.
  split
  · next hid => rw [List.filter_cons_of_pos (by simpa using hid), hcomm]
  · next hid =>
    rw [List.filter_cons_of_neg (by simpa using hid), hcomm]
    refine List.filter_eq_self.mpr fun f hf => ?_
    have hkey : f.1 = id := by simpa using (List.mem_filter.mp hf).2
    rw [hkey, bne_iff_ne]
    exact Ne.symm hid

/-! ## Events -/

/-- What an event leaves of rules, and what it sets off, as far as it is about one id. -/
def ofId (id : String)
    (after : List LoadedRule × List (String × Instant) × List TriggeredRule) :
    List LoadedRule × List (String × Instant) × List TriggeredRule :=
  (after.1.filter fun l => l.rule.id == id, after.2.1.filter fun f => f.1 == id,
    withId id after.2.2)

/-- A rule in front of others counts if it has the id. -/
theorem ofId_cons (id : String) (l : LoadedRule) (now : Instant) (fired : Bool)
    (after : List LoadedRule × List (String × Instant) × List TriggeredRule) :
    ofId id (l :: after.1, after.2.1, if fired then ⟨l, now⟩ :: after.2.2 else after.2.2) =
      if l.rule.id = id then
        (l :: (ofId id after).1, (ofId id after).2.1,
          if fired then ⟨l, now⟩ :: (ofId id after).2.2 else (ofId id after).2.2)
      else ofId id after := by
  by_cases hid : l.rule.id = id <;> cases fired <;> simp [ofId, withId, hid]

/-- An event does to the first rule what it does to one rule, and goes on with the times it leaves.
-/
theorem processAll_cons (event : Event) (now : Instant) (lf : List (String × Instant))
    (l : LoadedRule) (rest : List LoadedRule) :
    processAll event now lf (l :: rest) =
      let after := processAll event now
        (if fires event now lf l then noteFired lf l.rule.id now else lf) rest
      (noted event now lf l :: after.1, after.2.1,
        if fires event now lf l then ⟨noted event now lf l, now⟩ :: after.2.2 else after.2.2) := by
  rw [processAll, processOne_eq]

/-- What a rule leaves of the times of an id. -/
theorem filter_ite_noteFired (lf : List (String × Instant)) (id id' : String) (now : Instant)
    (fired : Bool) :
    (if fired then noteFired lf id' now else lf).filter (fun f => f.1 == id) =
      if id' = id then
        if fired then noteFired (lf.filter fun f => f.1 == id) id' now
        else lf.filter fun f => f.1 == id
      else lf.filter fun f => f.1 == id := by
  cases fired with
  | false => exact (ite_self _).symm
  | true => exact filter_noteFired lf id id' now

/-- What an event does under one id it does there if nothing else is loaded. -/
theorem ofId_processAll (event : Event) (now : Instant) (id : String) (rules : List LoadedRule)
    (lf : List (String × Instant)) :
    ofId id (processAll event now lf rules) =
      processAll event now (lf.filter fun f => f.1 == id)
        (rules.filter fun l => l.rule.id == id) := by
  induction rules generalizing lf with
  | nil => rfl
  | cons l rest ih =>
    have hrule : (noted event now lf l).rule.id = l.rule.id := by rw [rule_noted]
    rw [processAll_cons, ofId_cons, hrule, ih, filter_ite_noteFired]
    by_cases hid : l.rule.id = id
    · -- The rule finds its last trigger among the times of its own id, and writes it there.
      have hlookup : lf.lookup l.rule.id = (lf.filter fun f => f.1 == id).lookup l.rule.id := by
        rw [hid, lookup_filter_eq]
      obtain ⟨hnoted, hfires⟩ := processOne_congr hlookup
      rw [List.filter_cons_of_pos (by simpa using hid), processAll_cons, if_pos hid, if_pos hid,
        hnoted, hfires]
    · -- Another rule leaves no trace under the id.
      rw [List.filter_cons_of_neg (by simpa using hid), if_neg hid, if_neg hid]

/-- What an event does under one id it does there if nothing else is loaded. -/
theorem only_process (s : RuleSet) (event : Event) (now : Instant) (id : String) :
    (s.process event now).1.only id = ((s.only id).process event now).1 ∧
      withId id (s.process event now).2 = ((s.only id).process event now).2 := by
  have hall := ofId_processAll event now id s.rules s.lastFired
  constructor
  · exact congrArg (fun after => (⟨after.1, after.2.1⟩ : RuleSet)) hall
  · exact congrArg (fun after => after.2.2) hall

/-- What a run shows of an id is the run of what is there under it. -/
theorem only_processEach (s : RuleSet) (calls : List (Event × Instant)) (id : String) :
    (s.processEach calls).1.only id = ((s.only id).processEach calls).1 ∧
      (s.processEach calls).2.map (withId id) = ((s.only id).processEach calls).2 := by
  induction calls generalizing s with
  | nil => exact ⟨rfl, rfl⟩
  | cons call calls ih =>
    obtain ⟨event, now⟩ := call
    obtain ⟨hafter, htriggered⟩ := s.only_process event now id
    obtain ⟨hrun, hrest⟩ := ih (s.process event now).1
    rw [hafter] at hrun hrest
    simp only [processEach]
    exact ⟨hrun, by rw [List.map_cons, htriggered, hrest]⟩

/-- Events leave the definitions of the rules as they are. -/
theorem definitions_processEach (s : RuleSet) (calls : List (Event × Instant)) :
    (s.processEach calls).1.definitions = s.definitions := by
  induction calls generalizing s with
  | nil => rfl
  | cons call calls ih =>
    obtain ⟨event, now⟩ := call
    exact (ih (s.process event now).1).trans (definitions_process s event now)

/-- What an event sets off stands in the order of the rules. -/
theorem WellKept.process_sublist {s : RuleSet} (h : s.WellKept) (event : Event) (now : Instant) :
    ((s.process event now).2.map fun t => t.loaded.rule).Sublist s.definitions := by
  rw [h.process_due]
  exact List.filter_sublist

/-! ## Rules that were loaded -/

/-- Under the id of a rule that was loaded there is that rule, and it has done nothing yet. -/
theorem only_load {rules : List Rule} {r : Rule} (hr : r ∈ (load rules).1.definitions) :
    (load rules).1.only r.id = ⟨[⟨r, .empty⟩], []⟩ := by
  have hkept := wellKept_load rules
  obtain ⟨l, hl, rfl⟩ := List.mem_map.mp hr
  have hget : (load rules).1.rules.find? (fun l' => l'.rule.id == l.rule.id) = some l :=
    hkept.get?_eq_some_iff.mpr ⟨hl, rfl⟩
  have hnew : l = ⟨l.rule, .empty⟩ := by
    calc l = ⟨l.rule, l.stats⟩ := rfl
      _ = ⟨l.rule, .empty⟩ := by rw [stats_load hl]
  rw [only, filter_key_eq_toList hkept.nodup_ids, hget, lastFired_load, ← hnew]
  rfl

/-- A rule is found by its id as long as only events come. -/
theorem exists_get?_processEach {rules : List Rule} {r : Rule}
    (hr : r ∈ (load rules).1.definitions) (calls : List (Event × Instant)) :
    ∃ stats, ((load rules).1.processEach calls).1.get? r.id = some ⟨r, stats⟩ := by
  have hdefinitions := definitions_processEach (load rules).1 calls
  have hkept := (wellKept_load rules).congr hdefinitions
  rw [← hdefinitions] at hr
  obtain ⟨l, hl, rfl⟩ := List.mem_map.mp hr
  exact ⟨l.stats, hkept.get?_eq_some_iff.mpr ⟨hl, rfl⟩⟩

/-- Rules do not influence each other: after loading, a rule triggers on the same events and counts
the same, whichever other rules are there. What an event sets off is in the order of the rules, and
none of them is in it twice. -/
theorem load_independent (rules : List Rule) : Independent rules := by
  have hkept := wellKept_load rules
  constructor
  · intro r hr rules' hr' calls
    have hsame : (load rules).1.only r.id = (load rules').1.only r.id := by
      rw [only_load hr, only_load hr']
    obtain ⟨hafter, htriggered⟩ := only_processEach (load rules).1 calls r.id
    obtain ⟨hafter', htriggered'⟩ := only_processEach (load rules').1 calls r.id
    rw [hsame] at hafter htriggered
    obtain ⟨stats, hstats⟩ := exists_get?_processEach hr calls
    refine ⟨htriggered.trans htriggered'.symm, stats, hstats, ?_⟩
    rw [← get?_only, hafter', ← hafter, get?_only, hstats]
  · exact fun ops event now => (hkept.run ops).process_sublist event now
  · exact fun ops event now => (hkept.run ops).nodup_process_snd event now

end RuleSet

end Klaxon
