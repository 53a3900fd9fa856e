import Klaxon.Proofs.Rule.Loading

/-!
# The books of a rule set

When a rule fired last is written down twice: in its statistics, and apart from the rules in the
times that the cooldowns are taken from. The first stays with a rule that is updated, the second is
forgotten with a rule that is removed. `run_booksAgree` says that the two agree after every run, and
that the counts of a rule are those of an observer who notes every event since the rule was added
(`encounters`): the events that it triggered on, and those that it looked at.

`Books` is what is kept by one operation (`Books.perform`). A rule that is added starts with empty
statistics, and nothing is remembered of its id, since what is remembered of an id is always about a
rule that is there; without that, a rule that is added again would inherit the cooldown of the old
one. Updates keep the statistics by their ids (`ledger`), and only events write to the books.
-/

namespace Klaxon

namespace RuleSet

/-- An event that comes to a rule set. -/
structure Encounter where
  rules : RuleSet
  event : Event
  now : Instant

/-- Whether a rule is there and looks at an event. -/
def looksAt (s : RuleSet) (id : String) (event : Event) : Bool :=
  s.rules.any fun l => l.rule.id == id && isApplicable l.rule event

/-- What an observer has noted after an operation of the events since a rule was added. -/
def noticed (s : RuleSet) (id : String) (since : List Encounter) : Operation → List Encounter
  | .load _ | .replace _ => []
  | .add rule => if rule.id == id && (s.add rule).2.isOk then [] else since
  | .process event now => since ++ [⟨s, event, now⟩]
  | .update _ | .setEnabled .. | .remove _ => since

/-- What an observer has noted after operations of the events since a rule was added. -/
def encounters (s : RuleSet) (id : String) (since : List Encounter) :
    List Operation → List Encounter
  | [] => since
  | op :: ops => (s.perform op).1.encounters id (s.noticed id since op) ops

/-- The statistics of the rules under their ids. -/
def ledger (s : RuleSet) : List (String × RuleStats) := s.rules.map fun l => (l.rule.id, l.stats)

end RuleSet

open RuleSet in
/-- The statistics of a rule are right, given the last trigger that is remembered of its id and the
events since it was added. -/
structure RuleStats.Agrees (stats : RuleStats) (id : String) (last? : Option Instant)
    (since : List Encounter) : Prop where
  stamped : stats.lastTriggeredAt = last?
  triggered : stats.triggerCount = since.countP fun e => e.rules.triggers id e.event e.now
  evaluated : stats.evaluationCount = since.countP fun e => e.rules.looksAt id e.event
  le : stats.triggerCount ≤ stats.evaluationCount

namespace RuleSet

/-- What the books of a rule set say after a run. -/
structure BooksAgree (ops : List Operation) : Prop where
  /-- The statistics of each rule are right. -/
  agrees : ∀ l ∈ (empty.run ops).rules,
    l.stats.Agrees l.rule.id ((empty.run ops).lastFired.lookup l.rule.id)
      (empty.encounters l.rule.id [] ops)
  /-- The last triggers that are remembered are those of rules that are there. -/
  loaded : ∀ fired ∈ (empty.run ops).lastFired, ((empty.run ops).get? fired.1).isSome = true
  /-- An event leaves all of a rule as it is but its statistics. -/
  definitions : ∀ event now,
    ((empty.run ops).process event now).1.definitions = (empty.run ops).definitions
  /-- A rule that an event sets off is given as it is right after. -/
  snapshots : ∀ event now, ∀ t ∈ ((empty.run ops).process event now).2,
    ((empty.run ops).process event now).1.get? t.loaded.rule.id = some t.loaded ∧
      t.triggeredAt = now
  /-- An event sets a rule off once at most. -/
  once : ∀ event now,
    (((empty.run ops).process event now).2.map fun t => t.loaded.rule.id).Nodup

/-- The books of a rule set, given what was noted of each id. -/
structure Books (s : RuleSet) (since : String → List Encounter) : Prop where
  kept : s.WellKept
  agrees : ∀ entry ∈ s.ledger,
    entry.2.Agrees entry.1 (s.lastFired.lookup entry.1) (since entry.1)
  loaded : ∀ id, (s.lastFired.lookup id).isSome = true → id ∈ s.ledger.map Prod.fst

/-! ## Statistics by ids -/

/-- The ledger is kept under the ids of the rules. -/
theorem map_fst_ledger (s : RuleSet) : s.ledger.map Prod.fst = s.rules.map fun l => l.rule.id :=
  List.map_map

/-- An id is loaded if a rule is found under it. -/
theorem mem_map_fst_ledger {s : RuleSet} {id : String} :
    id ∈ s.ledger.map Prod.fst ↔ (s.get? id).isSome = true := by
  rw [map_fst_ledger, get?, List.find?_isSome, List.mem_map]
  simp only [beq_iff_eq]

/-- Sorting moves statistics only. -/
theorem ledger_sort (rules : List LoadedRule) (lastFired : List (String × Instant)) :
    (ledger ⟨sort rules, lastFired⟩).Perm (ledger ⟨rules, lastFired⟩) :=
  (List.mergeSort_perm rules inOrder).map _

/-- A rule that is updated keeps its statistics, and so do the others. -/
theorem ledger_update (s : RuleSet) (rule : Rule) : (s.update rule).1.ledger.Perm s.ledger := by
  unfold update
  cases rule.validate with
  | error e => exact List.Perm.refl _
  | ok u =>
    cases (s.get? rule.id).isSome with
    | false => exact List.Perm.refl _
    | true =>
      refine (ledger_sort _ s.lastFired).trans (List.Perm.of_eq ?_)
      rw [ledger, ledger, List.map_map]
      refine List.map_congr_left fun l _ => ?_
      -- A new definition is put in under the same id, and the statistics stay where they are.
      by_cases hid : l.rule.id = rule.id <;> simp [hid]

/-- A rule that is switched on or off keeps its statistics, and so do the others. -/
theorem ledger_setEnabled (s : RuleSet) (id : String) (enabled : Bool) :
    (s.setEnabled id enabled).1.ledger = s.ledger := by
  unfold setEnabled
  cases s.get? id with
  | none => rfl
  | some l =>
    dsimp only
    split
    · rfl
    · rw [ledger, ledger, List.map_map]
      refine List.map_congr_left fun l _ => ?_
      by_cases hid : l.rule.id = id <;> simp [hid]

/-- A rule that is removed takes its statistics with it. -/
theorem ledger_remove (s : RuleSet) (id : String) :
    (s.remove id).1.ledger = s.ledger.filter fun entry => entry.1 != id := by
  rw [ledger, ledger, List.filter_map]
  rfl

/-- A rule that is added starts with empty statistics. -/
theorem ledger_add_of_ok {s : RuleSet} {rule : Rule} (h : (s.add rule).2.isOk = true) :
    s.get? rule.id = none ∧ (s.add rule).1.ledger.Perm (s.ledger ++ [(rule.id, .empty)]) := by
  unfold add at h ⊢
  cases hvalid : rule.validate with
  | error e => simp [hvalid, Except.isOk, Except.toBool] at h
  | ok u =>
    cases hget : s.get? rule.id with
    | some l => simp [hvalid, hget, Except.isOk, Except.toBool] at h
    | none =>
      refine ⟨rfl, (ledger_sort _ s.lastFired).trans (List.Perm.of_eq ?_)⟩
      exact List.map_append

/-- The rules that are loaded have empty statistics. -/
theorem stats_load {rules : List Rule} {l : LoadedRule} (hl : l ∈ (load rules).1.rules) :
    l.stats = .empty := by
  have hfound := (wellKept_load rules).get?_eq_some_iff.mpr ⟨hl, rfl⟩
  rw [get?_load, Option.map_eq_some_iff] at hfound
  obtain ⟨r, -, rfl⟩ := hfound
  rfl

/-! ## Events -/

/-- What an event does to the statistics of a rule. -/
theorem stats_noted (event : Event) (now : Instant) (lastFired : List (String × Instant))
    (l : LoadedRule) :
    (noted event now lastFired l).stats =
      ⟨l.stats.evaluationCount + if isApplicable l.rule event then 1 else 0,
        l.stats.triggerCount + if fires event now lastFired l then 1 else 0,
        if fires event now lastFired l then some now else l.stats.lastTriggeredAt⟩ := by
  cases hfires : fires event now lastFired l with
  | true =>
    have happlicable : isApplicable l.rule event = true := (Bool.and_eq_true_iff.mp hfires).1
    rw [noted_of_fires hfires, happlicable]
    rfl
  | false =>
    cases happlicable : isApplicable l.rule event with
    | true =>
      rw [noted_of_not_fires happlicable hfires]
      rfl
    | false =>
      have hsame : noted event now lastFired l = l := by
        simp only [noted, processOne, happlicable, Bool.false_eq_true, if_false]
      rw [hsame]
      rfl

/-- A rule that is there looks at the events that are for it. -/
theorem WellKept.looksAt_eq {s : RuleSet} (h : s.WellKept) {l : LoadedRule} (hl : l ∈ s.rules)
    (event : Event) : s.looksAt l.rule.id event = isApplicable l.rule event := by
  rw [looksAt, Bool.eq_iff_iff, List.any_eq_true]
  constructor
  · -- No other rule has this id.
    rintro ⟨l', hl', hlooks⟩
    obtain ⟨hid, hlooks⟩ := Bool.and_eq_true_iff.mp hlooks
    have hsame := List.inj_on_of_nodup_map h.nodup_ids hl' hl (beq_iff_eq.mp hid)
    exact hsame ▸ hlooks
  · exact fun hlooks => ⟨l, hl, by simp [hlooks]⟩

/-- The rules that an event sets off, as they are right after. -/
theorem WellKept.mem_process_snd {s : RuleSet} (h : s.WellKept) {event : Event} {now : Instant}
    {t : TriggeredRule} (ht : t ∈ (s.process event now).2) :
    (s.process event now).1.get? t.loaded.rule.id = some t.loaded ∧ t.triggeredAt = now := by
  obtain ⟨hrules, htriggered, -⟩ := process_spec h.nodup_ids event now
  rw [htriggered] at ht
  obtain ⟨l, hl, rfl⟩ := List.mem_map.mp ht
  have hkept := h.congr (definitions_process s event now)
  refine ⟨hkept.get?_eq_some_iff.mpr ⟨?_, rfl⟩, rfl⟩
  rw [hrules]
  exact List.mem_map_of_mem (List.mem_filter.mp hl).1

/-- An event sets no rule off twice. -/
theorem WellKept.nodup_process_snd {s : RuleSet} (h : s.WellKept) (event : Event)
    (now : Instant) : ((s.process event now).2.map fun t => t.loaded.rule.id).Nodup := by
  rw [(process_spec h.nodup_ids event now).2.1, List.map_map]
  have hids : ((fun t : TriggeredRule => t.loaded.rule.id) ∘
      fun l => ⟨noted event now s.lastFired l, now⟩) = fun l => l.rule.id :=
    funext fun l => congrArg Rule.id (rule_noted event now s.lastFired l)
  rw [hids]
  exact h.nodup_ids.sublist (List.filter_sublist.map _)

/-! ## One operation -/

/-- Empty statistics are right where nothing was noted. -/
theorem RuleStats.agrees_empty (id : String) : RuleStats.empty.Agrees id none [] :=
  ⟨rfl, rfl, rfl, Nat.le_refl 0⟩

/-- The books are right where no rule is loaded. -/
theorem books_empty : empty.Books fun _ => [] := by
  constructor
  · exact wellKept_empty
  · simp [ledger, empty]
  · simp [empty]

/-- Where nothing is loaded, nothing is remembered. -/
theorem Books.lookup_eq_none {s : RuleSet} {since : String → List Encounter} (h : s.Books since)
    {id : String} (hget : s.get? id = none) : s.lastFired.lookup id = none := by
  cases hlast : s.lastFired.lookup id with
  | none => rfl
  | some last =>
    have hmem := mem_map_fst_ledger.mp (h.loaded id (by rw [hlast]; rfl))
    rw [hget] at hmem
    simp at hmem

/-- The books of rules that keep their statistics. -/
theorem Books.congr {s s' : RuleSet} {since : String → List Encounter} (h : s.Books since)
    (hkept : s'.WellKept) (hledger : s'.ledger.Perm s.ledger)
    (hfired : s'.lastFired = s.lastFired) : s'.Books since := by
  constructor
  · exact hkept
  · intro entry hmem
    rw [hfired]
    exact h.agrees entry (hledger.mem_iff.mp hmem)
  · intro id hlast
    rw [hfired] at hlast
    exact (hledger.map Prod.fst).mem_iff.mpr (h.loaded id hlast)

/-- A rule that is added keeps the books right. -/
theorem Books.add {s : RuleSet} {since : String → List Encounter} (h : s.Books since)
    (rule : Rule) :
    (s.add rule).1.Books fun id => s.noticed id (since id) (.add rule) := by
  have hkept := h.kept.add rule
  simp only [noticed]
  cases hok : (s.add rule).2.isOk with
  | false =>
    -- A rule that is refused leaves everything as it is.
    have hsame : (s.add rule).1 = s := by
      cases hadd : (s.add rule).2 with
      | error e => exact add_eq_of_error hadd
      | ok u => simp [hadd, Except.isOk, Except.toBool] at hok
    simpa only [hsame, Bool.and_false, Bool.false_eq_true, if_false] using h
  | true =>
    obtain ⟨hnone, hledger⟩ := ledger_add_of_ok hok
    constructor
    · exact hkept
    · intro entry hmem
      rw [lastFired_add]
      rcases List.mem_append.mp (hledger.mem_iff.mp hmem) with hold | hnew
      · -- The id of the new rule is none of those that are there.
        have hne : rule.id ≠ entry.1 := by
          intro hid
          have hthere := mem_map_fst_ledger.mp (List.mem_map_of_mem hold)
          rw [← hid, hnone] at hthere
          simp at hthere
        simpa [hne] using h.agrees entry hold
      · rw [List.mem_singleton.mp hnew, h.lookup_eq_none hnone]
        simpa using RuleStats.agrees_empty rule.id
    · intro id hlast
      rw [lastFired_add] at hlast
      rw [(hledger.map Prod.fst).mem_iff, List.map_append]
      exact List.mem_append_left _ (h.loaded id hlast)

/-- The books are right after loading: nothing was noted yet. -/
theorem books_load (rules : List Rule) : (load rules).1.Books fun _ => [] := by
  constructor
  · exact wellKept_load rules
  · intro entry hmem
    obtain ⟨l, hl, rfl⟩ := List.mem_map.mp hmem
    rw [lastFired_load, stats_load hl]
    exact RuleStats.agrees_empty l.rule.id
  · intro id hlast
    rw [lastFired_load] at hlast
    simp at hlast

/-- A rule that is removed keeps the books right. -/
theorem Books.remove {s : RuleSet} {since : String → List Encounter} (h : s.Books since)
    (id : String) : (s.remove id).1.Books since := by
  have hlookup : ∀ id', (s.remove id).1.lastFired.lookup id' =
      if id' = id then none else s.lastFired.lookup id' := lookup_filter_ne s.lastFired id
  constructor
  · exact h.kept.remove id
  · intro entry hmem
    rw [ledger_remove] at hmem
    obtain ⟨hmem, hne⟩ := List.mem_filter.mp hmem
    rw [hlookup, if_neg (by simpa using hne)]
    exact h.agrees entry hmem
  · intro id' hlast
    rw [hlookup] at hlast
    by_cases hid : id' = id
    · simp [hid] at hlast
    · rw [if_neg hid] at hlast
      obtain ⟨entry, hmem, rfl⟩ := List.mem_map.mp (h.loaded id' hlast)
      rw [ledger_remove]
      exact List.mem_map_of_mem (List.mem_filter.mpr ⟨hmem, by simpa using hid⟩)

/-- An event keeps the books right. -/
theorem Books.process {s : RuleSet} {since : String → List Encounter} (h : s.Books since)
    (event : Event) (now : Instant) :
    (s.process event now).1.Books fun id => s.noticed id (since id) (.process event now) := by
  obtain ⟨hrules, -, -⟩ := process_spec h.kept.nodup_ids event now
  have hlookup : ∀ id, (s.process event now).1.lastFired.lookup id =
      if s.triggers id event now then some now else s.lastFired.lookup id :=
    h.kept.lookup_perform (.process event now)
  have hids : (s.process event now).1.ledger.map Prod.fst = s.ledger.map Prod.fst := by
    rw [map_fst_ledger, map_fst_ledger, hrules, List.map_map]
    exact List.map_congr_left fun l _ => congrArg Rule.id (rule_noted event now s.lastFired l)
  constructor
  · exact h.kept.congr (definitions_process s event now)
  · intro entry hmem
    rw [ledger, hrules, List.map_map] at hmem
    obtain ⟨l, hl, rfl⟩ := List.mem_map.mp hmem
    have hold := h.agrees (l.rule.id, l.stats) (List.mem_map_of_mem hl)
    have htriggers := h.kept.triggers_eq hl event now
    have hlooks := h.kept.looksAt_eq hl event
    simp only [Function.comp, rule_noted, stats_noted, noticed, hlookup]
    constructor
    · rw [htriggers]
      exact if_congr Iff.rfl rfl hold.stamped
    · rw [List.countP_append, List.countP_singleton, htriggers]
      exact congrArg (· + _) hold.triggered
    · rw [List.countP_append, List.countP_singleton, hlooks]
      exact congrArg (· + _) hold.evaluated
    · -- A rule that fires looked at the event.
      have hle : l.stats.triggerCount ≤ l.stats.evaluationCount := hold.le
      cases hfires : fires event now s.lastFired l with
      | false =>
        simp only [Bool.false_eq_true, if_false]
        omega
      | true =>
        have happlicable : isApplicable l.rule event = true := (Bool.and_eq_true_iff.mp hfires).1
        simp only [happlicable, if_true]
        omega
  · intro id hlast
    rw [hids]
    rw [hlookup] at hlast
    cases htriggers : s.triggers id event now with
    | false =>
      rw [htriggers] at hlast
      exact h.loaded id hlast
    | true =>
      -- Only a rule that is there triggers.
      rw [triggers_eq_any h.kept.nodup_ids, List.any_eq_true] at htriggers
      obtain ⟨l, hl, hboth⟩ := htriggers
      have hid : l.rule.id = id := by simpa using (Bool.and_eq_true_iff.mp hboth).1
      rw [map_fst_ledger, ← hid]
      exact List.mem_map_of_mem hl

/-- Every operation keeps the books right. -/
theorem Books.perform {s : RuleSet} {since : String → List Encounter} (h : s.Books since)
    (op : Operation) : (s.perform op).1.Books fun id => s.noticed id (since id) op := by
  have hkept := h.kept.perform op
  cases op with
  | load rules => exact books_load rules
  | replace rules => exact books_load rules
  | add rule => exact h.add rule
  | update rule => exact h.congr hkept (ledger_update s rule) (lastFired_update s rule)
  | setEnabled id enabled =>
    exact h.congr hkept (.of_eq (ledger_setEnabled s id enabled))
      (lastFired_setEnabled s id enabled)
  | remove id => exact h.remove id
  | process event now => exact h.process event now

/-! ## Runs -/

/-- A run keeps the books right. -/
theorem Books.run {s : RuleSet} {since : String → List Encounter} (h : s.Books since)
    (ops : List Operation) : (s.run ops).Books fun id => s.encounters id (since id) ops := by
  induction ops generalizing s since with
  | nil => exact h
  | cons op ops ih => exact ih (h.perform op)

/-- After every run, the statistics of a rule and the last trigger that is remembered of its id say
the same, the rule has triggered as often as it was given for an event since it was added and was
evaluated as often as it looked at one, and nothing is remembered of rules that are not there. An
event changes nothing but statistics, and the rules that it gives are those that are kept. -/
theorem run_booksAgree (ops : List Operation) : BooksAgree ops := by
  have hbooks := books_empty.run ops
  constructor
  · exact fun l hl => hbooks.agrees (l.rule.id, l.stats) (List.mem_map_of_mem hl)
  · intro fired hmem
    -- The first entry under an id is the one that counts, and this one shows that there is one.
    refine mem_map_fst_ledger.mp (hbooks.loaded fired.1 ?_)
    rw [List.lookup_isSome_iff]
    exact ⟨fired, hmem, by simp⟩
  · exact definitions_process (empty.run ops)
  · exact fun event now t ht => hbooks.kept.mem_process_snd ht
  · exact hbooks.kept.nodup_process_snd

end RuleSet

end Klaxon
