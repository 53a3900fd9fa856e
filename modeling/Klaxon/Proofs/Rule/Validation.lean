import Klaxon.Proofs.Json.Paths
import Klaxon.Proofs.Rule.Shape

/-!
# What the check of a condition is worth

`Condition.Proper` says what a tree must be, from the documents: how many levels it may have, how
many children a connective has, which texts name a field, and which literals an operator takes.
`Condition.Holds` reads a tree as a formula about an event. `validate_judges` says that the check
accepts the proper trees and no others, and that the verdict on an event is the reading of the tree,
where the tree was accepted.

The walk of the check is the business of `validate_eq_ok_iff_wellFormed`. What is left is to give
the two functions that it asks at a comparison a meaning of their own (`isFieldPath_iff`,
`accepts_iff_takes`), and to follow the verdict down the tree (`evaluate_iff_holds`). There every
node has to be sound: `and` without children holds as a formula, but its verdict is false.
-/

namespace Klaxon

/-! ## Fields -/

namespace Condition

/-- A text names a field: it is not blank, and nothing between its dots is empty. -/
structure NamesField (field : String) : Prop where
  notBlank : ∃ c ∈ field.toList, Text.isBlank c = false
  segments : ∀ s ∈ field.toList.splitOn '.', s ≠ []

/-- The check of fields accepts what names a field. -/
theorem isFieldPath_iff (field : String) : isFieldPath field = true ↔ NamesField field := by
  have hblank : Text.isBlankText field = false ↔
      ∃ c ∈ field.toList, Text.isBlank c = false := by
    rw [← Bool.not_eq_true, Text.isBlankText_iff]
    simp
  have hsegments : ((Json.segments field.toList).all fun s => !s.isEmpty) = true ↔
      ∀ s ∈ field.toList.splitOn '.', s ≠ [] := by
    rw [Json.segments_eq_splitOn, List.all_eq_true]
    simp
  unfold isFieldPath
  rw [Bool.and_eq_true, Bool.not_eq_true', hblank, hsegments]
  exact ⟨fun h => ⟨h.1, h.2⟩, fun h => ⟨h.notBlank, h.segments⟩⟩

end Condition

/-! ## Literals -/

namespace Operator

/-- The literals that an operator takes: an order needs a number or a text, a search for something
needs something to look for, a comparison of texts needs a text, and a choice needs a list. -/
def Takes : Operator → Json → Prop
  | .eq, _ | .ne, _ | .present, _ => True
  | .gt, literal | .lt, literal | .gte, literal | .lte, literal =>
    (∃ i, literal = .int i) ∨ (∃ x, literal = .float x) ∨ ∃ s, literal = .string s
  | .contains, literal | .notContains, literal => literal ≠ .null
  | .startsWith, literal | .endsWith, literal | .fits, literal => ∃ s, literal = .string s
  | .isIn, literal | .notIn, literal => ∃ items, literal = .array items

/-- The check of literals accepts what the operator takes. -/
theorem accepts_iff_takes (op : Operator) (literal : Json) :
    op.accepts literal = true ↔ op.Takes literal := by
  cases op <;> cases literal <;>
    simp [accepts, Takes, Json.isNumber, Json.number?, Json.isString, Json.text?, Json.isNull,
      Json.isArray, Json.items?]

end Operator

namespace Condition

/-! ## Proper trees -/

/-- What a condition must be to be loaded. -/
structure Proper (c : Condition) : Prop where
  levels_le : c.levels ≤ 32
  negation : ∀ children, logical .not children ∈ c.subtrees → ∃ only, children = [only]
  junction : ∀ connective children, connective ≠ .not →
    logical connective children ∈ c.subtrees → children ≠ []
  field : ∀ field operator value, comparison field operator value ∈ c.subtrees → NamesField field
  literal : ∀ field operator value, comparison field operator value ∈ c.subtrees →
    operator.Takes value

/-- A node is sound by itself if it is what a proper tree may have there. -/
theorem soundNode_iff (d : Condition) :
    d.SoundNode ↔
      (∀ children, d = logical .not children → ∃ only, children = [only]) ∧
      (∀ connective children, connective ≠ .not → d = logical connective children →
        children ≠ []) ∧
      (∀ field operator value, d = comparison field operator value →
        NamesField field ∧ operator.Takes value) := by
  cases d with
  | comparison field operator value =>
    simp [SoundNode, isFieldPath_iff, Operator.accepts_iff_takes]
  | logical connective children =>
    simp only [logical.injEq, reduceCtorEq, false_implies, implies_true, and_true]
    cases connective with
    | not =>
      -- A negation has one child.
      rw [SoundNode, List.length_eq_one_iff]
      constructor
      · rintro ⟨only, rfl⟩
        refine ⟨fun _ h => ⟨only, h.2.symm⟩, ?_⟩
        rintro connective _ hne ⟨hnot, -⟩
        exact absurd hnot.symm hne
      · rintro ⟨hnegation, -⟩
        exact hnegation children ⟨rfl, rfl⟩
    | and | or =>
      -- A conjunction or a disjunction has children.
      simp only [SoundNode]
      constructor
      · rintro hne
        refine ⟨fun _ h => ?_, ?_⟩
        · cases h.1
        · rintro _ _ - ⟨-, rfl⟩
          exact hne
      · rintro ⟨-, hjunction⟩
        exact hjunction _ children (by simp) ⟨rfl, rfl⟩

/-- The trees that the walk of the check accepts are the proper ones. -/
theorem wellFormed_iff_proper (c : Condition) : c.WellFormed ↔ c.Proper := by
  constructor
  · rintro ⟨hlevels, hnodes⟩
    have hsound := fun d hd => (soundNode_iff d).mp (hnodes d hd)
    constructor
    · exact hlevels
    · intro children hmem
      exact (hsound _ hmem).1 children rfl
    · intro connective children hne hmem
      exact (hsound _ hmem).2.1 connective children hne rfl
    · intro field operator value hmem
      exact ((hsound _ hmem).2.2 field operator value rfl).1
    · intro field operator value hmem
      exact ((hsound _ hmem).2.2 field operator value rfl).2
  · intro h
    refine ⟨h.levels_le, fun d hd => (soundNode_iff d).mpr ⟨?_, ?_, ?_⟩⟩
    · rintro children rfl
      exact h.negation children hd
    · rintro connective children hne rfl
      exact h.junction connective children hne hd
    · rintro field operator value rfl
      exact ⟨h.field field operator value hd, h.literal field operator value hd⟩

/-! ## The reading of a tree -/

/-- A condition as a formula about an event. A comparison asks for a value under its field. -/
def Holds (context : Json) : Condition → Prop
  | .logical .and children => ∀ c ∈ children, Holds context c
  | .logical .or children => ∃ (c : Condition) (_ : c ∈ children), Holds context c
  | .logical .not children => ∀ c ∈ children, ¬ Holds context c
  | .comparison field operator value =>
    ∃ actual, context.lookup field = some actual ∧ operator.check actual value = true

variable {context : Json}

/-- All of several conditions hold if each of them does. -/
theorem evaluateAll_iff :
    ∀ {cs : List Condition}, evaluateAll context cs = true ↔ ∀ c ∈ cs, c.evaluate context = true
  | [] => by simp [evaluateAll]
  | c :: cs => by rw [evaluateAll, Bool.and_eq_true, evaluateAll_iff, List.forall_mem_cons]

/-- Any of several conditions holds if one of them does. -/
theorem evaluateAny_iff :
    ∀ {cs : List Condition}, evaluateAny context cs = true ↔ ∃ c ∈ cs, c.evaluate context = true
  | [] => by simp [evaluateAny]
  | c :: cs => by simp [evaluateAny, @evaluateAny_iff cs]

/-- The verdict on an event is what the tree says of it, if all nodes of the tree are sound. -/
theorem evaluate_iff_holds (context : Json) (c : Condition)
    (h : ∀ d ∈ c.subtrees, d.SoundNode) : c.evaluate context = true ↔ c.Holds context := by
  match c with
  | .comparison field operator value =>
    simp only [evaluate, Holds]
    cases context.lookup field with
    | none => simp
    | some actual => simp
  | .logical connective children =>
    obtain ⟨hroot, hbelow⟩ := forall_subtrees_logical.mp h
    have ih : ∀ c ∈ children, c.evaluate context = true ↔ c.Holds context := fun c hc =>
      evaluate_iff_holds context c (hbelow c hc)
    cases connective with
    | and =>
      -- Here the node has to be sound: without children the verdict would be false.
      have hchildren : children.isEmpty = false := by
        simpa [SoundNode] using hroot
      rw [evaluate, hchildren, Bool.not_false, Bool.true_and, evaluateAll_iff, Holds]
      exact forall₂_congr ih
    | or =>
      rw [evaluate, evaluateAny_iff, Holds]
      simp only [exists_prop]
      exact exists_congr fun c => and_congr_right fun hc => ih c hc
    | not =>
      obtain ⟨only, rfl⟩ := List.length_eq_one_iff.mp hroot
      have honly := ih only (List.mem_singleton_self only)
      rw [evaluate, evaluateOnly, Bool.not_eq_true', ← Bool.not_eq_true, honly, Holds]
      simp

/-- What the check of a condition is worth. -/
structure Judged (c : Condition) : Prop where
  /-- It accepts the proper trees, and no others. -/
  accepted_iff : c.validate = .ok () ↔ c.Proper
  /-- A tree that it accepts compares something. -/
  comparison : c.validate = .ok () →
    0 < c.leafCount ∧ ∃ field operator value, comparison field operator value ∈ c.subtrees
  /-- The verdict of a tree that it accepts is the reading of the tree. -/
  verdict : c.validate = .ok () → ∀ context, c.evaluate context = true ↔ c.Holds context

/-- A tree whose nodes are sound has a comparison. -/
theorem leafCount_pos (c : Condition) (h : ∀ d ∈ c.subtrees, d.SoundNode) : 0 < c.leafCount := by
  match c with
  | .comparison field operator value => simp [leafCount]
  | .logical connective children =>
    obtain ⟨hroot, hbelow⟩ := forall_subtrees_logical.mp h
    have hchildren : children ≠ [] := by
      rintro rfl
      cases connective <;> simp [SoundNode] at hroot
    obtain ⟨first, others, rfl⟩ := List.exists_cons_of_ne_nil hchildren
    -- A first child is enough, and every sound connective has one.
    have ih := leafCount_pos first (hbelow first List.mem_cons_self)
    rw [leafCount, leafCountAll]
    omega

/-- The check accepts the trees that are as they must be; each of them has a comparison, and its
verdict on every event is what it says as a formula. -/
theorem validate_judges (c : Condition) : c.Judged := by
  have hnodes : c.validate = .ok () → ∀ d ∈ c.subtrees, d.SoundNode := fun h =>
    ((validate_eq_ok_iff_wellFormed c).mp h).nodes
  constructor
  · rw [validate_eq_ok_iff_wellFormed, wellFormed_iff_proper]
  · intro h
    have hpos := leafCount_pos c (hnodes h)
    -- What is counted is there.
    have hexists := mt (leafCount_eq_zero_iff c).mpr (by omega)
    simp only [not_forall, not_not] at hexists
    obtain ⟨d, hd, field, operator, value, rfl⟩ := hexists
    exact ⟨hpos, field, operator, value, hd⟩
  · intro h context
    exact evaluate_iff_holds context c (hnodes h)

end Condition

end Klaxon
