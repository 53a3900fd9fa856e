import Mathlib.Data.List.Induction
import Klaxon.Proofs.Rule.Cooldown

/-!
# Loading rules

Rules are loaded one after the other, and each is sorted in at once. What comes of it does not show
that: `load_loadsCanonically` says that of every id the first rule that passes its check is kept,
that the kept rules stand in their order, and that every other rule gives one error, in the order of
the list. So the order in which distinct rules are loaded does not matter, and rules that do not
pass are worth their errors and nothing else.

A well kept rule set is determined by what is found under each id (`WellKept.ext`). So it suffices
to follow one id through the list: a rule that is added is found under its id if it passes and
nothing was found there before (`WellKept.get?_add`), and the first such rule stays
(`get?_load`).
-/

namespace Klaxon

/-- Whether a rule passes its check. -/
def Rule.passes (r : Rule) : Bool := r.validate.isOk

/-- The error of a rule that is loaded behind other rules, if it has one: the one of its check or,
if it passes, that one of those other rules has its id and passes too. -/
def Rule.errorBehind? (before : List Rule) (r : Rule) : Option RuleError :=
  match r.validate with
  | .error e => some e
  | .ok () => if before.any fun r' => r'.passes && r'.id == r.id then some (.duplicateId r.id)
    else none

/-- Of two rules at most one precedes the other. -/
theorem Rule.Precedes.asymm {a b : Rule} (hab : a.Precedes b) (hba : b.Precedes a) : False := by
  rcases hab with hab | ⟨hp, hid⟩
  · rcases hba with hba | ⟨hp', -⟩
    · exact Nat.lt_asymm hab hba
    · rw [hp'] at hab
      exact Nat.lt_irrefl _ hab
  · rcases hba with hba | ⟨-, hid'⟩
    · rw [hp] at hba
      exact Nat.lt_irrefl _ hba
    · exact String.lt_asymm hid hid'

namespace RuleSet

/-- The first rule with an id that passes its check. -/
def firstOf? (rules : List Rule) (id : String) : Option Rule :=
  rules.find? fun r => r.passes && r.id == id

/-- The errors of the rules in a list, each behind the rules before it. -/
def errorsIn (rules : List Rule) : List RuleError :=
  rules.zipIdx.filterMap fun (r, i) => r.errorBehind? (rules.take i)

/-- What loading makes of rules. -/
structure LoadsCanonically (rules : List Rule) : Prop where
  /-- Of each id the first rule that passes is found, and it has done nothing yet. -/
  found : ∀ id, (load rules).1.get? id = (firstOf? rules id).map fun r => ⟨r, .empty⟩
  /-- No id is there twice. -/
  distinct : ((load rules).1.definitions.map Rule.id).Nodup
  /-- The rules stand in the order of their priorities and then of their ids. -/
  ordered : (load rules).1.definitions.Pairwise Rule.Precedes
  /-- No trigger is remembered. -/
  fresh : (load rules).1.lastFired = []
  /-- The errors are those of the rules behind the ones before them, in the order of the list. -/
  errors : (load rules).2 = errorsIn rules
  /-- Every rule is kept or gives one error. -/
  counted : (load rules).1.rules.length + (load rules).2.length = rules.length
  /-- Rules that pass and have distinct ids can be loaded in any order. -/
  permuted : ((rules.filter Rule.passes).map Rule.id).Nodup → ∀ rules', rules'.Perm rules →
    (load rules').1 = (load rules).1 ∧ (load rules').2.Perm (load rules).2
  /-- More rules that do not pass, wherever they stand, add errors and change nothing else. -/
  spared : ∀ rules', rules.Sublist rules' →
    rules'.filter Rule.passes = rules.filter Rule.passes →
      (load rules').1 = (load rules).1 ∧ (load rules).2.Sublist (load rules').2

/-! ## Lists with distinct keys -/

section Keys

variable {α : Type} {key : α → String} {xs ys : List α}

/-- Where keys are distinct, what is there is found by its key. -/
theorem find?_key_eq_some_iff (hn : (xs.map key).Nodup) {k : String} {x : α} :
    xs.find? (fun y => key y == k) = some x ↔ x ∈ xs ∧ key x = k := by
  constructor
  · intro h
    exact ⟨List.mem_of_find?_eq_some h, by simpa using List.find?_some h⟩
  · rintro ⟨hx, rfl⟩
    have hsome : (xs.find? fun y => key y == key x).isSome = true :=
      List.find?_isSome.mpr ⟨x, hx, by simp⟩
    obtain ⟨y, hy⟩ := Option.isSome_iff_exists.mp hsome
    have hkey : key y = key x := by simpa using List.find?_some hy
    rw [hy, List.inj_on_of_nodup_map hn (List.mem_of_find?_eq_some hy) hx hkey]

/-- Where keys are distinct, the order does not matter to what is found. -/
theorem find?_key_of_perm (hp : xs.Perm ys) (hn : (xs.map key).Nodup) (k : String) :
    xs.find? (fun x => key x == k) = ys.find? fun x => key x == k := by
  have hn' : (ys.map key).Nodup := (hp.map key).nodup_iff.mp hn
  ext x
  rw [find?_key_eq_some_iff hn, find?_key_eq_some_iff hn', hp.mem_iff]

end Keys

/-! ## What is found under an id -/

/-- In a well kept rule set a rule that is there is found by its id. -/
theorem WellKept.get?_eq_some_iff {s : RuleSet} (h : s.WellKept) {id : String} {l : LoadedRule} :
    s.get? id = some l ↔ l ∈ s.rules ∧ l.rule.id = id :=
  find?_key_eq_some_iff h.nodup_ids

/-- A well kept rule set is determined by what is found under each id and by the last triggers. -/
theorem WellKept.ext {s s' : RuleSet} (h : s.WellKept) (h' : s'.WellKept)
    (hget : ∀ id, s.get? id = s'.get? id) (hfired : s.lastFired = s'.lastFired) : s = s' := by
  have hmem : ∀ l, l ∈ s.rules ↔ l ∈ s'.rules := by
    intro l
    have hiff := congrArg (· = some l) (hget l.rule.id)
    simpa [h.get?_eq_some_iff, h'.get?_eq_some_iff] using hiff
  have hperm : s.rules.Perm s'.rules :=
    (List.perm_ext_iff_of_nodup h.nodup_ids.of_map h'.nodup_ids.of_map).mpr hmem
  -- The order is strict, so there is one way only to line the same rules up.
  have hrules : s.rules = s'.rules := by
    refine hperm.eq_of_pairwise ?_ (List.pairwise_map.mp h.ordered)
      (List.pairwise_map.mp h'.ordered)
    intro a b _ _ hab hba
    exact (hab.asymm hba).elim
  calc s = ⟨s.rules, s.lastFired⟩ := rfl
    _ = ⟨s'.rules, s'.lastFired⟩ := by rw [hrules, hfired]
    _ = s' := rfl

/-- A rule that is added is found if it passes and nothing was found under its id. -/
theorem WellKept.get?_add {s : RuleSet} (h : s.WellKept) (rule : Rule) (id : String) :
    (s.add rule).1.get? id =
      (s.get? id).or (if rule.passes && rule.id == id then some ⟨rule, .empty⟩ else none) := by
  have hafter := h.add rule
  unfold RuleSet.add at hafter ⊢
  unfold Rule.passes
  cases hvalid : rule.validate with
  | error e => simp [Except.isOk, Except.toBool]
  | ok u =>
    rw [hvalid] at hafter
    cases hget : s.get? rule.id with
    | some l =>
      -- Something is found already under the id of the new rule.
      by_cases hid : rule.id = id
      · subst hid
        simp [hget]
      · simp [hid]
    | none =>
      simp only [hget, Option.isSome_none, Bool.false_eq_true, if_false] at hafter ⊢
      have hperm := List.mergeSort_perm (s.rules ++ [⟨rule, .empty⟩]) inOrder
      -- Sorting does not change what is found, so the new rule is looked for behind the others.
      have hsorted := find?_key_of_perm hperm hafter.nodup_ids id
      rw [get?, sort, hsorted, List.find?_append, get?]
      by_cases hid : rule.id = id <;> simp [hid, Except.isOk, Except.toBool]

/-! ## One rule more -/

/-- The last rule of a list is added to what the others are loaded to. -/
theorem load_concat (rules : List Rule) (rule : Rule) :
    load (rules ++ [rule]) =
      match (load rules).1.add rule with
      | (s, .ok ()) => (s, (load rules).2)
      | (s, .error e) => (s, (load rules).2 ++ [e]) := by
  unfold load
  rw [List.foldl_append]
  rfl

/-- The last rule of a list is added to the rules that the others are loaded to. -/
theorem load_concat_fst (rules : List Rule) (rule : Rule) :
    (load (rules ++ [rule])).1 = ((load rules).1.add rule).1 := by
  rw [load_concat]
  split
  · next heq => rw [heq]
  · next heq => rw [heq]

/-- What is found under an id is the first rule that has it and passes. -/
theorem get?_load (rules : List Rule) (id : String) :
    (load rules).1.get? id = (firstOf? rules id).map fun r => ⟨r, .empty⟩ := by
  induction rules using List.reverseRecOn with
  | nil => rfl
  | append_singleton rules rule ih =>
    rw [load_concat_fst, (wellKept_load rules).get?_add, ih, firstOf?, firstOf?, List.find?_append,
      Option.map_or]
    -- A new rule is found only where none was, as `firstOf?` looks at the list from the front.
    cases hpasses : rule.passes && rule.id == id with
    | true => simp [hpasses]
    | false => simp [hpasses]

/-- A rule is added behind those that were loaded unless it has an error behind them. -/
theorem add_load (rules : List Rule) (rule : Rule) :
    (load rules).1.add rule =
      match rule.errorBehind? rules with
      | some e => ((load rules).1, .error e)
      | none =>
        (⟨sort ((load rules).1.rules ++ [⟨rule, .empty⟩]), (load rules).1.lastFired⟩,
          .ok ()) := by
  -- An id is taken if a rule before has it and passes, whether or not it was the first.
  have hfound : ((load rules).1.get? rule.id).isSome =
      rules.any fun r => r.passes && r.id == rule.id := by
    rw [get?_load, Option.isSome_map, firstOf?, Bool.eq_iff_iff, List.find?_isSome,
      List.any_eq_true]
  unfold add Rule.errorBehind?
  cases rule.validate with
  | error e => rfl
  | ok u =>
    dsimp only
    rw [hfound]
    cases rules.any fun r => r.passes && r.id == rule.id <;> rfl

/-- A rule with an error adds that error and nothing else. -/
theorem load_concat_of_some {rules : List Rule} {rule : Rule} {e : RuleError}
    (h : rule.errorBehind? rules = some e) :
    load (rules ++ [rule]) = ((load rules).1, (load rules).2 ++ [e]) := by
  rw [load_concat, add_load, h]

/-- A rule without an error is sorted in. -/
theorem load_concat_of_none {rules : List Rule} {rule : Rule}
    (h : rule.errorBehind? rules = none) :
    load (rules ++ [rule]) =
      (⟨sort ((load rules).1.rules ++ [⟨rule, .empty⟩]), (load rules).1.lastFired⟩,
        (load rules).2) := by
  rw [load_concat, add_load, h]

/-- Every rule that is loaded is kept or gives an error. -/
theorem length_load (rules : List Rule) :
    (load rules).1.rules.length + (load rules).2.length = rules.length := by
  induction rules using List.reverseRecOn with
  | nil => rfl
  | append_singleton rules rule ih =>
    cases herror : rule.errorBehind? rules with
    | some e =>
      rw [load_concat_of_some herror, List.length_append, List.length_append, ← ih]
      rfl
    | none =>
      rw [load_concat_of_none herror, sort, List.length_mergeSort, List.length_append,
        List.length_append, ← ih]
      simp only [List.length_singleton]
      omega

/-! ## The errors -/

/-- The error of the last rule stands behind the other ones. -/
theorem errorsIn_concat (rules : List Rule) (rule : Rule) :
    errorsIn (rules ++ [rule]) = errorsIn rules ++ (rule.errorBehind? rules).toList := by
  -- The rules before one of the first places are the same with the last rule and without it.
  have hfirst : (rules.zipIdx.filterMap fun x => x.1.errorBehind? ((rules ++ [rule]).take x.2)) =
      rules.zipIdx.filterMap fun x => x.1.errorBehind? (rules.take x.2) := by
    refine List.filterMap_congr fun ⟨r, i⟩ hmem => ?_
    have hlt : i < rules.length := by
      have := List.mem_zipIdx hmem
      omega
    rw [List.take_append_of_le_length (Nat.le_of_lt hlt)]
  rw [errorsIn, List.zipIdx_append, List.filterMap_append, hfirst, errorsIn]
  cases herror : rule.errorBehind? rules with
  | none => simp [herror]
  | some e => simp [herror]

/-- The errors of loading are those of the rules behind the ones before them. -/
theorem load_snd (rules : List Rule) : (load rules).2 = errorsIn rules := by
  induction rules using List.reverseRecOn with
  | nil => rfl
  | append_singleton rules rule ih =>
    rw [errorsIn_concat, ← ih]
    cases herror : rule.errorBehind? rules with
    | some e => rw [load_concat_of_some herror, Option.toList_some]
    | none => rw [load_concat_of_none herror, Option.toList_none, List.append_nil]

/-! ## Lists that are loaded alike -/

/-- Only the rules that pass are looked for. -/
theorem firstOf?_eq (rules : List Rule) (id : String) :
    firstOf? rules id = (rules.filter Rule.passes).find? fun r => r.id == id := by
  rw [firstOf?, List.find?_filter]
  refine congrArg rules.find? (funext fun r => ?_)
  rw [Bool.decide_and, Bool.decide_eq_true, Bool.decide_eq_true]

/-- The rules that pass, as they are found by their ids, determine the rule set. -/
theorem load_fst_congr {rules rules' : List Rule}
    (h : ∀ id, firstOf? rules id = firstOf? rules' id) : (load rules).1 = (load rules').1 := by
  refine (wellKept_load rules).ext (wellKept_load rules') (fun id => ?_) ?_
  · rw [get?_load, get?_load, h]
  · rw [lastFired_load, lastFired_load]

/-- The error of a rule depends on the rules before it that pass. -/
theorem errorBehind?_congr {before before' : List Rule}
    (h : before.filter Rule.passes = before'.filter Rule.passes) (r : Rule) :
    r.errorBehind? before = r.errorBehind? before' := by
  have hany : (before.any fun r' => r'.passes && r'.id == r.id) =
      before'.any fun r' => r'.passes && r'.id == r.id := by
    rw [← List.any_filter, ← List.any_filter, h]
  unfold Rule.errorBehind?
  rw [hany]

/-- Among rules of which those that pass have distinct ids, the errors are those of the checks. -/
theorem errorsIn_of_nodup {rules : List Rule}
    (hn : ((rules.filter Rule.passes).map Rule.id).Nodup) :
    errorsIn rules = rules.filterMap (Rule.errorBehind? []) := by
  induction rules using List.reverseRecOn with
  | nil => rfl
  | append_singleton rules rule ih =>
    rw [List.filter_append, List.map_append, List.nodup_append] at hn
    obtain ⟨hn, -, hnew⟩ := hn
    have hsame : rule.errorBehind? rules = rule.errorBehind? [] := by
      unfold Rule.errorBehind?
      cases hvalid : rule.validate with
      | error e => rfl
      | ok u =>
        -- The rule passes, so no other one with its id does.
        have hpasses : rule.passes = true := by
          simp [Rule.passes, hvalid, Except.isOk, Except.toBool]
        have hnone : (rules.any fun r => r.passes && r.id == rule.id) = false := by
          refine List.any_eq_false.mpr fun r hr hboth => ?_
          obtain ⟨hr', hid⟩ := Bool.and_eq_true_iff.mp hboth
          refine hnew r.id (List.mem_map_of_mem (List.mem_filter.mpr ⟨hr, hr'⟩)) rule.id ?_
            (beq_iff_eq.mp hid)
          simp [hpasses]
        dsimp only
        rw [hnone, List.any_nil]
    rw [errorsIn_concat, ih hn, hsame, List.filterMap_append]
    cases herror : rule.errorBehind? [] with
    | none => simp [herror]
    | some e => simp [herror]

/-- Rules that do not pass add errors to those that are there. -/
theorem errorsIn_sublist {rules rules' : List Rule} (hsub : rules.Sublist rules')
    (hsame : rules'.filter Rule.passes = rules.filter Rule.passes) :
    (errorsIn rules).Sublist (errorsIn rules') := by
  induction rules' using List.reverseRecOn generalizing rules with
  | nil => rw [List.eq_nil_of_sublist_nil hsub]
  | append_singleton rules' rule ih =>
    rw [List.filter_append] at hsame
    obtain ⟨front, last, rfl, hfront, hlast⟩ := List.sublist_append_iff.mp hsub
    rcases List.sublist_singleton.mp hlast with rfl | rfl
    · -- The last rule is one more, so it cannot pass.
      rw [List.append_nil] at hsame ⊢
      have hle := (hfront.filter Rule.passes).length_le
      have hlength := congrArg List.length hsame
      rw [List.length_append] at hlength
      have hnone : ([rule].filter Rule.passes) = [] := by
        apply List.length_eq_zero_iff.mp
        omega
      rw [hnone, List.append_nil] at hsame
      rw [errorsIn_concat]
      exact (ih hfront hsame).trans (List.sublist_append_left _ _)
    · -- The last rule stands in both lists, behind the same rules that pass.
      rw [List.filter_append, List.append_cancel_right_eq] at hsame
      rw [errorsIn_concat, errorsIn_concat, errorBehind?_congr hsame]
      exact (ih hfront hsame).append (List.Sublist.refl _)

/-- Loading keeps of every id the first rule that passes its check, in the order of the priorities
and ids, and gives the errors of the other rules in their order. So rules with distinct ids can be
loaded in any order, and rules that do not pass change nothing but the errors. -/
theorem load_loadsCanonically (rules : List Rule) : LoadsCanonically rules := by
  have hkept := wellKept_load rules
  constructor
  · exact get?_load rules
  · exact hkept.nodup
  · exact hkept.ordered
  · exact lastFired_load rules
  · exact load_snd rules
  · exact length_load rules
  · intro hn rules' hperm
    have hfilter := hperm.filter Rule.passes
    have hn' : ((rules'.filter Rule.passes).map Rule.id).Nodup :=
      (hfilter.map Rule.id).nodup_iff.mpr hn
    constructor
    · refine load_fst_congr fun id => ?_
      rw [firstOf?_eq, firstOf?_eq]
      exact find?_key_of_perm hfilter hn' id
    · rw [load_snd, load_snd, errorsIn_of_nodup hn, errorsIn_of_nodup hn']
      exact hperm.filterMap _
  · intro rules' hsub hsame
    constructor
    · refine load_fst_congr fun id => ?_
      rw [firstOf?_eq, firstOf?_eq, hsame]
    · rw [load_snd, load_snd]
      exact errorsIn_sublist hsub hsame

end RuleSet

end Klaxon
