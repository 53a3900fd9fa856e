import Mathlib.Data.List.Nodup
import Klaxon.Proofs.Rule.Shape
import Klaxon.Rule.RuleSet

/-!
# Rule sets that operations lead to

A rule set is changed by seven operations, and a run is any sequence of them. `run_wellKept` says
what holds of the rules after every run that starts without rules: their ids differ, they stand in
their order, and each of them passes its check, so that a condition which is evaluated has the shape
that the check asks for. An operation that is refused changes nothing.

`WellKept` is about the definitions of the rules only. Events leave them as they are
(`definitions_process`), and every operation that changes them keeps the three facts.
-/

namespace Klaxon

/-- Whether a rule comes before another one: it has the higher priority, or the same priority and
the smaller id. -/
def Rule.Precedes (a b : Rule) : Prop :=
  b.priority.rank < a.priority.rank ∨ (a.priority = b.priority ∧ a.id < b.id)

/-- An operation on a rule set. -/
inductive RuleSet.Operation where
  | load (rules : List Rule)
  | replace (rules : List Rule)
  | add (rule : Rule)
  | update (rule : Rule)
  | setEnabled (id : String) (enabled : Bool)
  | remove (id : String)
  | process (event : Event) (now : Instant)

namespace RuleSet

/-- Performs an operation; gives the error of one that is refused. -/
def perform (s : RuleSet) : Operation → RuleSet × Except RuleError Unit
  | .load rules => ((load rules).1, .ok ())
  | .replace rules => ((s.replace rules).1, .ok ())
  | .add rule => s.add rule
  | .update rule => s.update rule
  | .setEnabled id enabled => s.setEnabled id enabled
  | .remove id => ((s.remove id).1, .ok ())
  | .process event now => ((s.process event now).1, .ok ())

/-- Performs operations one after the other. -/
def run (s : RuleSet) : List Operation → RuleSet
  | [] => s
  | op :: ops => (s.perform op).1.run ops

/-- The definitions of the rules, in their order. -/
def definitions (s : RuleSet) : List Rule := s.rules.map LoadedRule.rule

/-- The rules of a rule set have distinct ids, stand in their order, and pass their checks. -/
structure WellKept (s : RuleSet) : Prop where
  nodup : (s.definitions.map Rule.id).Nodup
  ordered : s.definitions.Pairwise Rule.Precedes
  valid : ∀ r ∈ s.definitions, r.validate = .ok ()

/-! ## The order of rules -/

/-- What the order of the sorting compares: priorities, and then ids. -/
theorem inOrder_iff (a b : LoadedRule) :
    inOrder a b = true ↔ b.rule.priority.rank < a.rule.priority.rank ∨
      (a.rule.priority = b.rule.priority ∧ a.rule.id ≤ b.rule.id) := by
  simp [inOrder]

/-- The order of the sorting is transitive. -/
theorem inOrder_trans (a b c : LoadedRule) (hab : inOrder a b = true) (hbc : inOrder b c = true) :
    inOrder a c = true := by
  rw [inOrder_iff] at hab hbc ⊢
  -- A step up in priority decides; the ids count only where all three priorities are the same.
  rcases hab with hab | ⟨hp, hid⟩
  · rcases hbc with hbc | ⟨hp', -⟩
    · exact .inl (Nat.lt_trans hbc hab)
    · exact .inl (hp' ▸ hab)
  · rcases hbc with hbc | ⟨hp', hid'⟩
    · exact .inl (hp ▸ hbc)
    · exact .inr ⟨hp.trans hp', String.le_trans hid hid'⟩

/-- The order of the sorting is total. -/
theorem inOrder_total (a b : LoadedRule) : (inOrder a b || inOrder b a) = true := by
  rw [Bool.or_eq_true, inOrder_iff, inOrder_iff]
  rcases Nat.lt_trichotomy a.rule.priority.rank b.rule.priority.rank with h | h | h
  · exact .inr (.inl h)
  · have hp := Severity.rank_injective h
    rcases String.le_total a.rule.id b.rule.id with hid | hid
    · exact .inl (.inr ⟨hp, hid⟩)
    · exact .inr (.inr ⟨hp.symm, hid⟩)
  · exact .inl (.inl h)

/-- Rules with distinct ids are sorted strictly. -/
theorem pairwise_sort {rules : List LoadedRule} (hn : (rules.map fun l => l.rule.id).Nodup) :
    (sort rules).Pairwise fun a b => a.rule.Precedes b.rule := by
  -- The order is not strict by itself; it is made so by the ids.
  have hsorted := List.pairwise_mergeSort inOrder_trans inOrder_total rules
  have hperm := (List.mergeSort_perm rules inOrder).map fun l => l.rule.id
  have hne := List.pairwise_map.mp (hperm.nodup_iff.mpr hn)
  refine (hsorted.and hne).imp fun {a b} h => ?_
  rcases (inOrder_iff a b).mp h.1 with hp | ⟨hp, hid⟩
  · exact .inl hp
  · exact .inr ⟨hp, Std.lt_of_le_of_ne hid h.2⟩

/-! ## What keeps rules well -/

/-- A rule set without rules. -/
theorem wellKept_empty : empty.WellKept := by
  constructor <;> simp [empty, definitions]

/-- What holds depends on the definitions alone. -/
theorem WellKept.congr {s s' : RuleSet} (h : s.WellKept) (he : s'.definitions = s.definitions) :
    s'.WellKept :=
  ⟨he ▸ h.nodup, he ▸ h.ordered, he ▸ h.valid⟩

/-- Distinct valid rules are well kept once they are sorted. -/
theorem wellKept_sort {rules : List LoadedRule} (lastFired : List (String × Instant))
    (hn : (rules.map fun l => l.rule.id).Nodup) (hvalid : ∀ l ∈ rules, l.rule.validate = .ok ()) :
    WellKept ⟨sort rules, lastFired⟩ := by
  have hperm := List.mergeSort_perm rules inOrder
  constructor
  · rw [definitions, List.map_map]
    exact (hperm.map _).nodup_iff.mpr hn
  · exact List.pairwise_map.mpr (pairwise_sort hn)
  · intro r hr
    obtain ⟨l, hl, rfl⟩ := List.mem_map.mp hr
    exact hvalid l (hperm.mem_iff.mp hl)

/-- The ids of the loaded rules are distinct. -/
theorem WellKept.nodup_ids {s : RuleSet} (h : s.WellKept) :
    (s.rules.map fun l => l.rule.id).Nodup := by
  have hn := h.nodup
  rwa [definitions, List.map_map] at hn

/-- Every loaded rule passes its check. -/
theorem WellKept.mem_valid {s : RuleSet} (h : s.WellKept) {l : LoadedRule} (hl : l ∈ s.rules) :
    l.rule.validate = .ok () :=
  h.valid l.rule (List.mem_map_of_mem hl)

/-- A change to rules that keeps their ids and priorities keeps them well if they stay valid. -/
theorem WellKept.map {s : RuleSet} (h : s.WellKept) {f : LoadedRule → LoadedRule}
    (hid : ∀ l, (f l).rule.id = l.rule.id) (hpriority : ∀ l, (f l).rule.priority = l.rule.priority)
    (hvalid : ∀ l ∈ s.rules, (f l).rule.validate = .ok ()) :
    WellKept ⟨s.rules.map f, s.lastFired⟩ := by
  constructor
  · have hids : (s.rules.map f).map (fun l => l.rule.id) = s.rules.map fun l => l.rule.id := by
      rw [List.map_map]
      exact List.map_congr_left fun l _ => hid l
    rw [definitions, List.map_map]
    exact hids ▸ h.nodup_ids
  · have hordered := List.pairwise_map.mp h.ordered
    refine List.pairwise_map.mpr (List.pairwise_map.mpr (hordered.imp fun {a b} hab => ?_))
    rw [Rule.Precedes, hid, hid, hpriority, hpriority]
    exact hab
  · intro r hr
    obtain ⟨l', hl', rfl⟩ := List.mem_map.mp hr
    obtain ⟨l, hl, rfl⟩ := List.mem_map.mp hl'
    exact hvalid l hl

/-- Where ids are distinct, a rule is found by its id. -/
theorem WellKept.eq_of_get? {s : RuleSet} (h : s.WellKept) {id : String} {l l' : LoadedRule}
    (hl : s.get? id = some l) (hmem : l' ∈ s.rules) (hid : l'.rule.id = id) : l' = l := by
  have hfound : l.rule.id = id := by simpa using List.find?_some hl
  have hthere : l ∈ s.rules := List.mem_of_find?_eq_some hl
  exact List.inj_on_of_nodup_map h.nodup_ids hmem hthere (hid.trans hfound.symm)

/-- A rule that is not found by its id is not there. -/
theorem forall_ne_of_get? {s : RuleSet} {id : String} (h : (s.get? id).isSome = false) :
    ∀ l ∈ s.rules, l.rule.id ≠ id := by
  simpa [get?] using h

/-! ## The operations -/

/-- A rule that is added, or refused, keeps the rules well. -/
theorem WellKept.add {s : RuleSet} (h : s.WellKept) (rule : Rule) : (s.add rule).1.WellKept := by
  simp only [RuleSet.add]
  cases hvalid : rule.validate with
  | error e => exact h
  | ok u =>
    cases hget : (s.get? rule.id).isSome with
    | true => simpa using h
    | false =>
      have hnew := forall_ne_of_get? hget
      simp only [Bool.false_eq_true, if_false]
      refine wellKept_sort s.lastFired ?_ ?_
      · rw [List.map_append, List.nodup_append]
        refine ⟨h.nodup_ids, by simp, ?_⟩
        -- The id of the new rule is none of those that are there.
        rintro _ hmem _ hlast rfl
        obtain ⟨l, hl, hid⟩ := List.mem_map.mp hmem
        exact hnew l hl (hid.trans (by simpa using hlast))
      · intro l hl
        rcases List.mem_append.mp hl with hl | hl
        · exact h.mem_valid hl
        · rw [List.mem_singleton.mp hl]
          exact hvalid

/-- Rules are well kept after loading. -/
theorem wellKept_load (rules : List Rule) : (load rules).1.WellKept := by
  unfold load
  refine List.foldlRecOn rules _
    (motive := fun acc : RuleSet × List RuleError => acc.1.WellKept) wellKept_empty ?_
  rintro ⟨s, errors⟩ h rule -
  -- Whether the rule is taken or refused, what goes on is what `add` leaves.
  have hadd := WellKept.add h rule
  dsimp only at hadd ⊢
  split
  · next heq => rwa [heq] at hadd
  · next heq => rwa [heq] at hadd

/-- An update keeps the rules well. -/
theorem WellKept.update {s : RuleSet} (h : s.WellKept) (rule : Rule) :
    (s.update rule).1.WellKept := by
  simp only [RuleSet.update]
  cases hvalid : rule.validate with
  | error e => exact h
  | ok u =>
    cases hget : (s.get? rule.id).isSome with
    | false => simpa using h
    | true =>
      simp only [if_true]
      refine wellKept_sort s.lastFired ?_ ?_
      · -- The rule that is put in has the id of the one that it replaces.
        have hids : (s.rules.map fun l => if l.rule.id == rule.id then ⟨rule, l.stats⟩ else l).map
            (fun l : LoadedRule => l.rule.id) = s.rules.map fun l => l.rule.id := by
          rw [List.map_map]
          refine List.map_congr_left fun l _ => ?_
          by_cases hid : l.rule.id = rule.id <;> simp [hid]
        rw [hids]
        exact h.nodup_ids
      · intro l hl
        obtain ⟨old, hold, rfl⟩ := List.mem_map.mp hl
        split
        · exact hvalid
        · exact h.mem_valid hold

/-- Switching a rule on or off keeps the rules well. -/
theorem WellKept.setEnabled {s : RuleSet} (h : s.WellKept) (id : String) (enabled : Bool) :
    (s.setEnabled id enabled).1.WellKept := by
  simp only [RuleSet.setEnabled]
  cases hget : s.get? id with
  | none => exact h
  | some l =>
    dsimp only
    split
    · exact h
    · next hcheck =>
      refine h.map (fun l => ?_) (fun l => ?_) fun old hold => ?_
      · split <;> rfl
      · split <;> rfl
      · split
        · next hid =>
          -- The rule that is changed is the one that was found, and that one was checked.
          have hsame := h.eq_of_get? hget hold (by simpa using hid)
          subst hsame
          cases enabled with
          | true => simpa using hcheck
          | false => exact Rule.validate_disable (h.mem_valid hold)
        · exact h.mem_valid hold

/-- A removal keeps the rules well. -/
theorem WellKept.remove {s : RuleSet} (h : s.WellKept) (id : String) :
    (s.remove id).1.WellKept := by
  have hsub : (s.remove id).1.definitions.Sublist s.definitions :=
    List.filter_sublist.map LoadedRule.rule
  exact ⟨h.nodup.sublist (hsub.map Rule.id), h.ordered.sublist hsub,
    fun r hr => h.valid r (hsub.subset hr)⟩

/-- An event leaves the definition of a rule as it is. -/
theorem rule_processOne (event : Event) (now : Instant) (lastFired : List (String × Instant))
    (l : LoadedRule) : (processOne event now lastFired l).1.rule = l.rule := by
  unfold processOne
  split
  · dsimp only
    split <;> rfl
  · rfl

/-- An event leaves the definitions of a list of rules as they are. -/
theorem map_rule_processAll (event : Event) (now : Instant) (rules : List LoadedRule) :
    ∀ lastFired : List (String × Instant),
      (processAll event now lastFired rules).1.map LoadedRule.rule =
        rules.map LoadedRule.rule := by
  induction rules with
  | nil => exact fun _ => rfl
  | cons l rest ih =>
    intro lastFired
    simp only [processAll, List.map_cons, rule_processOne, ih]

/-- An event leaves the definitions of the rules as they are. -/
theorem definitions_process (s : RuleSet) (event : Event) (now : Instant) :
    (s.process event now).1.definitions = s.definitions :=
  map_rule_processAll event now s.rules s.lastFired

/-- Every operation keeps the rules well. -/
theorem WellKept.perform {s : RuleSet} (h : s.WellKept) (op : Operation) :
    (s.perform op).1.WellKept := by
  cases op with
  | load rules => exact wellKept_load rules
  | replace rules => exact wellKept_load rules
  | add rule => exact h.add rule
  | update rule => exact h.update rule
  | setEnabled id enabled => exact h.setEnabled id enabled
  | remove id => exact h.remove id
  | process event now => exact h.congr (definitions_process s event now)

/-- A run keeps the rules well. -/
theorem WellKept.run {s : RuleSet} (h : s.WellKept) (ops : List Operation) :
    (s.run ops).WellKept := by
  induction ops generalizing s with
  | nil => exact h
  | cons op ops ih => exact ih (h.perform op)

/-! ## Refusals -/

/-- A rule that cannot be added leaves the rule set as it is. -/
theorem add_eq_of_error {s : RuleSet} {rule : Rule} {e : RuleError}
    (h : (s.add rule).2 = .error e) : (s.add rule).1 = s := by
  simp only [add] at h ⊢
  cases hvalid : rule.validate with
  | error e => rfl
  | ok u =>
    rw [hvalid] at h
    cases hget : (s.get? rule.id).isSome with
    | true => rfl
    | false => simp [hget] at h

/-- An update that is refused leaves the rule set as it is. -/
theorem update_eq_of_error {s : RuleSet} {rule : Rule} {e : RuleError}
    (h : (s.update rule).2 = .error e) : (s.update rule).1 = s := by
  simp only [update] at h ⊢
  cases hvalid : rule.validate with
  | error e => rfl
  | ok u =>
    rw [hvalid] at h
    cases hget : (s.get? rule.id).isSome with
    | true => simp [hget] at h
    | false => rfl

/-- A switch that is refused leaves the rule set as it is. -/
theorem setEnabled_eq_of_error {s : RuleSet} {id : String} {enabled : Bool} {e : RuleError}
    (h : (s.setEnabled id enabled).2 = .error e) : (s.setEnabled id enabled).1 = s := by
  simp only [setEnabled] at h ⊢
  cases hget : s.get? id with
  | none => rfl
  | some l =>
    simp only [hget] at h ⊢
    split at h
    · rfl
    · simp at h

/-- An operation that is refused leaves the rule set as it is. -/
theorem perform_eq_of_error {s : RuleSet} {op : Operation} {e : RuleError}
    (h : (s.perform op).2 = .error e) : (s.perform op).1 = s := by
  cases op with
  | add rule => exact add_eq_of_error h
  | update rule => exact update_eq_of_error h
  | setEnabled id enabled => exact setEnabled_eq_of_error h
  | load => simp [perform] at h
  | replace => simp [perform] at h
  | remove => simp [perform] at h
  | process => simp [perform] at h

/-- After every run that starts without rules, the ids of the rules differ, the rules stand in
their order and pass their checks, and the condition of an enabled rule has a comparison and is well
formed. An operation that is refused then leaves everything as it is, the statistics and the last
triggers with it. -/
theorem run_wellKept (ops : List Operation) :
    (empty.run ops).WellKept ∧
      (∀ r ∈ (empty.run ops).definitions, r.enabled = true →
        (∃ d ∈ r.condition.subtrees, d.IsComparison) ∧ r.condition.WellFormed) ∧
      ∀ op e, ((empty.run ops).perform op).2 = .error e →
        ((empty.run ops).perform op).1 = empty.run ops := by
  have hkept := wellKept_empty.run ops
  refine ⟨hkept, fun r hr henabled => ?_, fun op e he => perform_eq_of_error he⟩
  have hvalid := hkept.valid r hr
  exact ⟨Rule.comparison_of_validate hvalid henabled,
    Rule.wellFormed_of_validate hvalid henabled⟩

end RuleSet

end Klaxon
