import Klaxon.Rule.Definition

/-!
# The shape of a condition

`validateAt_eq_ok_iff` says what the walk of `Condition.validateAt` accepts: a tree of no more
levels than are left, each node of which is sound by itself. So a rule that passes its check and is
enabled has a comparison, and its condition is well formed (`Rule.comparison_of_validate`,
`Rule.wellFormed_of_validate`). The check does not ask more of a rule that is disabled than of the
same rule enabled (`Rule.validate_disable`).
-/

namespace Klaxon

namespace Condition

mutual

/-- The nodes of a condition, each with what is below it. -/
def subtrees : Condition → List Condition
  | .logical connective children => .logical connective children :: subtreesAll children
  | .comparison field operator value => [.comparison field operator value]

/-- The nodes of conditions. -/
def subtreesAll : List Condition → List Condition
  | [] => []
  | c :: cs => subtrees c ++ subtreesAll cs

end

mutual

/-- The number of levels of a condition. -/
def levels : Condition → Nat
  | .logical _ children => levelsAll children + 1
  | .comparison .. => 1

/-- The number of levels of the tallest of several conditions. -/
def levelsAll : List Condition → Nat
  | [] => 0
  | c :: cs => max (levels c) (levelsAll cs)

end

/-- Whether a condition is a comparison. -/
def IsComparison (c : Condition) : Prop :=
  ∃ field operator value, c = .comparison field operator value

/-- What is asked of a node, whatever stands above and below it. -/
def SoundNode : Condition → Prop
  | .logical .not children => children.length = 1
  | .logical _ children => children ≠ []
  | .comparison field operator value => isFieldPath field = true ∧ operator.accepts value = true

/-- The shape that a condition must have: at most 32 levels, one child below `not`, at least one
below `and` and `or`, and comparisons of fields with literals that the operators accept. -/
structure WellFormed (c : Condition) : Prop where
  levels_le : c.levels ≤ maxDepth
  nodes : ∀ d ∈ c.subtrees, d.SoundNode

/-! ## Lists of conditions -/

/-- The nodes of several conditions are those of each of them. -/
theorem mem_subtreesAll {d : Condition} :
    ∀ {cs : List Condition}, d ∈ subtreesAll cs ↔ ∃ c ∈ cs, d ∈ c.subtrees
  | [] => by simp [subtreesAll]
  | c :: cs => by simp [subtreesAll, @mem_subtreesAll d cs]

/-- Several conditions have at most as many levels as each of them may have. -/
theorem levelsAll_le_iff {n : Nat} :
    ∀ {cs : List Condition}, levelsAll cs ≤ n ↔ ∀ c ∈ cs, c.levels ≤ n
  | [] => by simp [levelsAll]
  | c :: cs => by rw [levelsAll, Nat.max_le, levelsAll_le_iff, List.forall_mem_cons]

/-- Several conditions have no comparison if none of them has one. -/
theorem leafCountAll_eq_zero_iff :
    ∀ {cs : List Condition}, leafCountAll cs = 0 ↔ ∀ c ∈ cs, c.leafCount = 0
  | [] => by simp [leafCountAll]
  | c :: cs => by
    simp [leafCountAll, Nat.add_eq_zero_iff, @leafCountAll_eq_zero_iff cs]

/-- Conditions are accepted together if each of them is. -/
theorem validateAll_eq_ok_iff {depth : Nat} :
    ∀ {cs : List Condition}, validateAll depth cs = .ok () ↔ ∀ c ∈ cs, validateAt depth c = .ok ()
  | [] => by simp [validateAll]
  | c :: cs => by
    have ih := @validateAll_eq_ok_iff depth cs
    cases h : validateAt depth c with
    | error fault => simp [validateAll, h]
    | ok u => simp [validateAll, h, ih]

/-! ## What the check accepts -/

/-- A connective has no fault in the number of its children if its node is sound. -/
theorem arityFault?_eq_none_iff {connective : Connective} {children : List Condition} :
    arityFault? connective children = none ↔ (logical connective children).SoundNode := by
  cases connective <;> cases children <;> simp [arityFault?, SoundNode]

/-- The nodes of a tree are sound if its root is and the nodes below it are. -/
theorem forall_subtrees_logical {p : Condition → Prop} {connective : Connective}
    {children : List Condition} :
    (∀ d ∈ (logical connective children).subtrees, p d) ↔
      p (logical connective children) ∧ ∀ c ∈ children, ∀ d ∈ c.subtrees, p d := by
  simp only [subtrees, List.forall_mem_cons, mem_subtreesAll]
  refine and_congr_right fun _ => ⟨fun h c hc d hd => h d ⟨c, hc, hd⟩, ?_⟩
  rintro h d ⟨c, hc, hd⟩
  exact h c hc d hd

/-- The check at some depth accepts the trees that have no more levels than are left there, and
whose nodes are sound. -/
theorem validateAt_eq_ok_iff (c : Condition) (depth : Nat) :
    validateAt depth c = .ok () ↔
      depth + c.levels ≤ maxDepth ∧ ∀ d ∈ c.subtrees, d.SoundNode := by
  match c with
  | .comparison field operator value =>
    have hlevels : (comparison field operator value).levels = 1 := by simp [levels]
    have hnodes : (∀ d ∈ (comparison field operator value).subtrees, d.SoundNode) ↔
        isFieldPath field = true ∧ operator.accepts value = true := by
      simp [subtrees, SoundNode]
    rw [hlevels, hnodes]
    simp only [validateAt]
    split
    · next hdeep =>
      have : ¬ depth + 1 ≤ maxDepth := by omega
      simp [this]
    · next hdeep =>
      have : depth + 1 ≤ maxDepth := by omega
      -- The depth is fine here, so the field and the literal decide.
      cases isFieldPath field <;> cases operator.accepts value <;> simp [this]
  | .logical connective children =>
    -- The children are checked one level deeper.
    have ih : ∀ c ∈ children, validateAt (depth + 1) c = .ok () ↔
        depth + 1 + c.levels ≤ maxDepth ∧ ∀ d ∈ c.subtrees, d.SoundNode :=
      fun c _ => validateAt_eq_ok_iff c (depth + 1)
    have hlevels : depth + (logical connective children).levels ≤ maxDepth ↔
        depth < maxDepth ∧ ∀ c ∈ children, depth + 1 + c.levels ≤ maxDepth := by
      have hall : levelsAll children ≤ maxDepth - (depth + 1) ↔
          ∀ c ∈ children, c.levels ≤ maxDepth - (depth + 1) := levelsAll_le_iff
      simp only [levels]
      constructor
      · intro h
        refine ⟨by omega, fun c hc => ?_⟩
        have := hall.mp (by omega) c hc
        omega
      · rintro ⟨hdepth, h⟩
        have := hall.mpr fun c hc => by
          have := h c hc
          omega
        omega
    rw [hlevels, forall_subtrees_logical]
    simp only [validateAt]
    split
    · next hdeep =>
      have : ¬ depth < maxDepth := by omega
      simp [this]
    · next hdeep =>
      -- The number of children is looked at before the children are.
      have hdepth : depth < maxDepth := by omega
      cases harity : arityFault? connective children with
      | some fault =>
        have : ¬ (logical connective children).SoundNode := by
          rw [← arityFault?_eq_none_iff, harity]
          simp
        simp [this]
      | none =>
        have hsound := arityFault?_eq_none_iff.mp harity
        simp only [validateAll_eq_ok_iff, hdepth, hsound, true_and]
        constructor
        · intro h
          exact ⟨fun c hc => ((ih c hc).mp (h c hc)).1, fun c hc => ((ih c hc).mp (h c hc)).2⟩
        · rintro ⟨hle, hnodes⟩ c hc
          exact (ih c hc).mpr ⟨hle c hc, hnodes c hc⟩

/-- The check accepts the conditions that are well formed. -/
theorem validate_eq_ok_iff_wellFormed (c : Condition) : c.validate = .ok () ↔ c.WellFormed := by
  rw [validate, validateAt_eq_ok_iff, Nat.zero_add]
  exact ⟨fun h => ⟨h.1, h.2⟩, fun h => ⟨h.levels_le, h.nodes⟩⟩

/-- A tree without comparisons is one that has no comparison among its nodes. -/
theorem leafCount_eq_zero_iff (c : Condition) :
    c.leafCount = 0 ↔ ∀ d ∈ c.subtrees, ¬ d.IsComparison := by
  match c with
  | .comparison field operator value => simp [leafCount, subtrees, IsComparison]
  | .logical connective children =>
    have ih : ∀ c ∈ children, c.leafCount = 0 ↔ ∀ d ∈ c.subtrees, ¬ d.IsComparison :=
      fun c _ => leafCount_eq_zero_iff c
    have hroot : ¬ (logical connective children).IsComparison := by simp [IsComparison]
    rw [forall_subtrees_logical (p := fun d => ¬ d.IsComparison), leafCount,
      leafCountAll_eq_zero_iff]
    exact ⟨fun h => ⟨hroot, fun c hc => (ih c hc).mp (h c hc)⟩,
      fun h c hc => (ih c hc).mpr (h.2 c hc)⟩

end Condition

namespace Rule

/-- What a rule has that passes its check. -/
theorem validate_eq_ok_iff (r : Rule) :
    r.validate = .ok () ↔
      Text.isBlankText r.id = false ∧ Text.isBlankText r.eventPattern = false ∧
        r.cooldownSecs ≤ maxCooldownSecs ∧ r.conditionError? = none ∧
        r.actions.findSome? actionFault? = none := by
  simp only [validate]
  cases Text.isBlankText r.id with
  | true => simp
  | false =>
    cases Text.isBlankText r.eventPattern with
    | true => simp
    | false =>
      by_cases hcooldown : maxCooldownSecs < r.cooldownSecs
      · have : ¬ r.cooldownSecs ≤ maxCooldownSecs := UInt64.not_le.mpr hcooldown
        simp [hcooldown, this]
      · have : r.cooldownSecs ≤ maxCooldownSecs := UInt64.not_lt.mp hcooldown
        cases r.conditionError? with
        | some e => simp [hcooldown]
        | none => cases r.actions.findSome? actionFault? <;> simp [hcooldown, this]

/-- The condition of a rule has no error if it is well formed and has a comparison, or if it has no
comparison and the rule is disabled. -/
theorem conditionError?_eq_none_iff (r : Rule) :
    r.conditionError? = none ↔
      (r.condition.leafCount = 0 ∧ r.enabled = false) ∨
        (r.condition.leafCount ≠ 0 ∧ r.condition.WellFormed) := by
  rw [← Condition.validate_eq_ok_iff_wellFormed]
  simp only [conditionError?]
  -- A condition without comparisons is only refused where the rule is enabled.
  by_cases hleaf : r.condition.leafCount = 0
  · cases r.enabled <;> simp [hleaf]
  · cases r.condition.validate <;> simp [hleaf]

/-- The cooldown of a rule that passes its check is at most 366 days. -/
theorem cooldownSecs_le_of_validate {r : Rule} (h : r.validate = .ok ()) :
    r.cooldownSecs.toNat ≤ 31622400 :=
  UInt64.le_iff_toNat_le.mp ((validate_eq_ok_iff r).mp h).2.2.1

/-- The condition of an enabled rule that passes its check has a comparison. -/
theorem comparison_of_validate {r : Rule} (h : r.validate = .ok ()) (henabled : r.enabled = true) :
    ∃ d ∈ r.condition.subtrees, d.IsComparison := by
  have hcondition := (conditionError?_eq_none_iff r).mp ((validate_eq_ok_iff r).mp h).2.2.2.1
  -- Only a rule that is disabled may go without comparisons.
  rcases hcondition with ⟨-, hdisabled⟩ | ⟨hleaf, -⟩
  · simp [henabled] at hdisabled
  · have hexists := mt (Condition.leafCount_eq_zero_iff r.condition).mpr hleaf
    simpa using hexists

/-- The condition of an enabled rule that passes its check is well formed. -/
theorem wellFormed_of_validate {r : Rule} (h : r.validate = .ok ()) (henabled : r.enabled = true) :
    r.condition.WellFormed := by
  have hcondition := (conditionError?_eq_none_iff r).mp ((validate_eq_ok_iff r).mp h).2.2.2.1
  rcases hcondition with ⟨-, hdisabled⟩ | ⟨-, hformed⟩
  · simp [henabled] at hdisabled
  · exact hformed

/-- A rule that passes its check passes it when it is disabled. -/
theorem validate_disable {r : Rule} (h : r.validate = .ok ()) :
    { r with enabled := false }.validate = .ok () := by
  obtain ⟨hid, hpattern, hcooldown, hcondition, hactions⟩ := (validate_eq_ok_iff r).mp h
  refine (validate_eq_ok_iff _).mpr ⟨hid, hpattern, hcooldown, ?_, hactions⟩
  rw [conditionError?_eq_none_iff] at hcondition ⊢
  -- Only the first case asks for anything of the switch, and there it is off.
  rcases hcondition with ⟨hleaf, -⟩ | hformed
  · exact .inl ⟨hleaf, rfl⟩
  · exact .inr hformed

end Rule

end Klaxon
