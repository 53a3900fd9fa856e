import Klaxon.Proofs.Rule.Shape

/-!
# What is lost with a refused literal

The check of a condition refuses a literal that its operator can never match, going by the type of
the literal. An operator that orders finds no order with what it refuses, and one that compares
texts finds no text (`check_eq_false_of_refused`). Null is the exception: a list could be asked
whether null is in it, but `contains` and `not_contains` refuse null (`Overlooks`).
`check_of_refused` says that nothing else is lost, neither at an operator nor in a condition that is
refused for a literal.
-/

namespace Klaxon

namespace Operator

/-- A value that null would match, if the operator could be given null: a list with null for
`contains`, and one without it for `not_contains`. -/
def Overlooks (op : Operator) (actual : Json) : Prop :=
  ∃ items, actual = .array items ∧
    (op = .contains ∧ .null ∈ items ∨ op = .notContains ∧ .null ∉ items)

section

variable {op : Operator} {actual literal : Json}

/-- Only null equals null. -/
theorem equal_null_iff : equal actual .null = true ↔ actual = .null := by
  cases actual <;> simp [equal, Json.number?, BEq.beq, Json.beq]

/-- A search for null in a list finds null. -/
theorem any_equal_null_iff {items : List Json} :
    (items.any fun i => equal i .null) = true ↔ .null ∈ items := by
  rw [List.any_eq_true]
  constructor
  · rintro ⟨i, hi, hequal⟩
    rwa [← equal_null_iff.mp hequal]
  · intro hnull
    exact ⟨.null, hnull, equal_null_iff.mpr rfl⟩

/-- What is neither a number nor a text has no place in the order. -/
theorem unordered (actual : Json) (hnumber : literal.isNumber = false)
    (hstring : literal.isString = false) :
    precedes actual literal = false ∧ precedes literal actual = false ∧
      ties actual literal = false := by
  have hnone : literal.number? = none :=
    Option.isNone_iff_eq_none.mp (Option.isSome_eq_false_iff.mp hnumber)
  -- What is left has neither a number nor a text to compare.
  cases literal with
  | string => cases hstring
  | int | float => cases hnone
  | null | bool | array | object => cases actual <;> simp [precedes, ties, Json.number?]

/-- A refused literal that is not null matches nothing. -/
theorem check_eq_false_of_refused (h : op.accepts literal = false) (hnull : literal ≠ .null) :
    op.check actual literal = false := by
  cases op with
  | eq | ne | present => cases h
  | gt | lt | gte | lte =>
    obtain ⟨hnumber, hstring⟩ := Bool.or_eq_false_iff.mp h
    obtain ⟨hbelow, habove, hties⟩ := unordered actual hnumber hstring
    simp [check, hbelow, habove, hties]
  | contains | notContains =>
    -- These refuse nothing but null.
    cases literal <;> simp_all [accepts, Json.isNull]
  | startsWith | endsWith | fits =>
    cases literal <;> cases h <;> cases actual <;> rfl
  | isIn | notIn =>
    cases literal <;> cases h <;> rfl

/-- Refused null matches what the operator overlooks. -/
theorem check_null_of_refused (h : op.accepts .null = false) :
    op.check actual .null = true ↔ op.Overlooks actual := by
  cases op with
  | eq | ne | present => cases h
  | gt | lt | gte | lte =>
    obtain ⟨hbelow, habove, hties⟩ := unordered actual (rfl : Json.null.isNumber = false) rfl
    simp [check, hbelow, habove, hties, Overlooks]
  | contains =>
    cases actual with
    | array items =>
      simp [check, containment?, Overlooks, ← any_equal_null_iff]
    | null | bool | int | float | string | object => simp [check, containment?, Overlooks]
  | notContains =>
    cases actual with
    | array items =>
      simp [check, containment?, Overlooks, ← any_equal_null_iff]
    | null | bool | int | float | string | object => simp [check, containment?, Overlooks]
  | startsWith | endsWith | fits => cases actual <;> simp [check, Overlooks]
  | isIn | notIn => simp [check, Overlooks]

/-- A refused literal matches what the operator overlooks, if it is null, and nothing else. -/
theorem check_iff_of_refused (h : op.accepts literal = false) :
    op.check actual literal = true ↔ literal = .null ∧ op.Overlooks actual := by
  by_cases hnull : literal = .null
  · subst hnull
    rw [check_null_of_refused h]
    simp
  · rw [check_eq_false_of_refused h hnull]
    simp [hnull]

end

end Operator

namespace Condition

variable {op : Operator} {literal : Json}

/-- Conditions are refused together for a fault of one of them. -/
theorem exists_of_validateAll_eq_error {depth : Nat} {fault : Fault} :
    ∀ {cs : List Condition}, validateAll depth cs = .error fault →
      ∃ c ∈ cs, validateAt depth c = .error fault
  | [], h => by cases h
  | c :: cs, h => by
    rw [validateAll] at h
    split at h
    · next hfault =>
      cases h
      exact ⟨c, List.mem_cons_self, hfault⟩
    · obtain ⟨d, hd, hfault⟩ := exists_of_validateAll_eq_error h
      exact ⟨d, List.mem_cons_of_mem c hd, hfault⟩

/-- A condition is refused for a literal only if one of its comparisons has it, and the operator
there refuses it. -/
theorem exists_comparison_of_validateAt {depth : Nat} (c : Condition)
    (h : validateAt depth c = .error (.badLiteral op literal)) :
    op.accepts literal = false ∧ ∃ field, comparison field op literal ∈ c.subtrees := by
  match c with
  | .comparison field operator value =>
    rw [validateAt] at h
    split at h
    · cases h
    split at h
    · cases h
    split at h
    · next hrefused =>
      cases h
      exact ⟨by simpa using hrefused, field, List.mem_singleton_self _⟩
    · cases h
  | .logical connective children =>
    rw [validateAt] at h
    split at h
    · cases h
    split at h
    · next harity =>
      cases h
      -- A wrong number of children is another fault.
      cases connective <;> cases children <;> simp [arityFault?] at harity
    · -- The fault is that of a child, and the comparison stands below the child.
      obtain ⟨child, hchild, hfault⟩ := exists_of_validateAll_eq_error h
      obtain ⟨hrefused, field, hmem⟩ := exists_comparison_of_validateAt child hfault
      refine ⟨hrefused, field, ?_⟩
      rw [subtrees]
      exact List.mem_cons_of_mem _ (mem_subtreesAll.mpr ⟨child, hchild, hmem⟩)

end Condition

/-- What is lost with a refused literal: the matches that the operator overlooks if the literal is
null, and nothing else. A condition that is refused for a literal has a comparison with it, and
there the same is lost. -/
theorem Operator.check_of_refused {op : Operator} {literal : Json}
    (h : op.accepts literal = false) :
    (∀ actual, op.check actual literal = true ↔ literal = .null ∧ op.Overlooks actual) ∧
      ∀ c : Condition, c.validate = .error (.badLiteral op literal) →
        ∃ field, Condition.comparison field op literal ∈ c.subtrees ∧
          ∀ context, (Condition.comparison field op literal).evaluate context = true ↔
            literal = .null ∧
              ∃ actual, context.lookup field = some actual ∧ op.Overlooks actual := by
  refine ⟨fun actual => check_iff_of_refused h, fun c hc => ?_⟩
  obtain ⟨-, field, hmem⟩ := Condition.exists_comparison_of_validateAt c hc
  refine ⟨field, hmem, fun context => ?_⟩
  rw [Condition.evaluate]
  cases context.lookup field with
  | none => simp
  | some actual => simp [check_iff_of_refused h]

/-- A search for null, alone and as a condition. -/
theorem Operator.nullSought_refused :
    contains.accepts .null = false ∧
      (∀ actual, contains.check actual .null = true ↔
        (Json.null = .null) ∧ contains.Overlooks actual) ∧
      (Condition.comparison "tags" .contains .null).validate =
        .error (.badLiteral .contains .null) ∧
      ∃ field, Condition.comparison field .contains .null ∈
          (Condition.comparison "tags" .contains .null).subtrees ∧
        ∀ context, (Condition.comparison field .contains .null).evaluate context = true ↔
          (Json.null = .null) ∧
            ∃ actual, context.lookup field = some actual ∧ contains.Overlooks actual := by
  have hrefused : contains.accepts .null = false := rfl
  have hcondition : (Condition.comparison "tags" .contains .null).validate =
      .error (.badLiteral .contains .null) := by
    have hfield : Condition.isFieldPath "tags" = true := by decide
    simp [Condition.validate, Condition.validateAt, Condition.maxDepth, hfield, hrefused]
  obtain ⟨hcheck, hload⟩ := check_of_refused hrefused
  exact ⟨hrefused, hcheck, hcondition, hload _ hcondition⟩

/-- Null is refused where it matches, and with it a condition that some event meets. -/
theorem Operator.null_overlooked :
    contains.accepts .null = false ∧ contains.check (.array [.null]) .null = true ∧
      notContains.accepts .null = false ∧ notContains.check (.array []) .null = true ∧
      (Condition.comparison "tags" .contains .null).isValid = false ∧
      (Condition.comparison "tags" .contains .null).evaluate
        (.object [("tags", .array [.null])]) = true := by
  decide

end Klaxon
