import Klaxon.Proofs.Json.Records
import Klaxon.Rule.RuleSet

/-!
# Rules as documents

A rule reads back from its document: whatever was left to a default or written by another name in
the document that it came from, what is written is the rule itself, by the names that are read as
its own. `LoadedRule.readsBack_of_read` says so of every rule that can be read; its statistics,
which are not written, start again from nothing. The induction is on the tree of the condition, each
level of which is read as a tagged record (`Condition.ofJson?_encode`).
-/

namespace Klaxon

namespace Condition

open Json

/-- The children of a condition are the items of its member `children`. -/
theorem childrenOf?_eq_bind (ms : List (String × Json)) :
    childrenOf? ms = ((Members.find? "children" ms).bind items?).bind ofItems? := by
  induction ms with
  | nil => rfl
  | cons m rest ih =>
    obtain ⟨k, v⟩ := m
    -- The member is this one, if it is a list; or it stands further back.
    by_cases hk : k = "children"
    · cases v <;> simp [childrenOf?, Members.find?, hk, items?]
    · cases v <;> simp [childrenOf?, Members.find?, hk, ih]

mutual

/-- A condition reads back, wherever in a tree it stands. -/
theorem ofJson?_encode (nested : Bool) : ∀ c : Condition, ofJson? nested (encode c) = some c
  | .logical connective children => by
    have hname := nameInTagged?_string connective.lookup_name
    have hchildren := ofItems?_encodeAll children
    simp [encode, ofMembers, ofJson?, tag?, hname, childrenOf?_eq_bind, items?, hchildren]
  | .comparison field operator value => by
    have hname := nameInTagged?_string operator.lookup_name
    simp [encode, ofMembers, ofJson?, tag?, comparisonOf?, hname]

/-- Conditions read back in their order. -/
theorem ofItems?_encodeAll : ∀ cs : List Condition, ofItems? (encodeAll cs) = some cs
  | [] => rfl
  | c :: cs => by
    rw [encodeAll, ofItems?, ofJson?_encode true c, ofItems?_encodeAll cs]
    rfl

end

instance : LawfulJson Condition where
  fromJson?_toJson := ofJson?_encode false
  isNull_toJson c := by cases c <;> rfl

end Condition

instance : LawfulJson Action where
  fromJson?_toJson a := by
    show Action.ofJson? (Action.encode a) = some a
    cases a with
    | escalate recipients priority =>
      have hname : Json.nameInTagged? Priority.names (toJson priority) = some priority :=
        Json.nameInTagged?_string priority.lookup_name
      simp [Action.ofJson?, Action.untag?, Action.encode, Json.ofMembers, Json.text?, hname]
    | _ => simp [Action.ofJson?, Action.untag?, Action.encode, Json.ofMembers, Json.text?]
  isNull_toJson a := by cases a <;> rfl

instance : LawfulJson Rule where
  fromJson?_toJson r := by
    show Rule.ofJson? (Rule.encode r) = some r
    -- With proofs of its own for each step nobody has to compute with the bounds of the numbers.
    simp -implicitDefEqProofs [-Option.bind_eq_bind, Record.some_bind, Rule.ofJson?, Rule.encode,
      Rule.fields, Json.ofMembers]
  isNull_toJson _ := rfl

namespace LoadedRule

/-- A loaded rule reads back as its definition, with nothing done yet. -/
theorem fromJson?_toJson (l : LoadedRule) :
    fromJson? (toJson l) = some { l with stats := RuleStats.empty } := by
  show (fromJson? (toJson l.rule)).map (fun r : Rule => (⟨r, .empty⟩ : LoadedRule)) = _
  rw [Klaxon.fromJson?_toJson, Option.map_some]

/-- A rule that can be read at all reads back from its own document, whatever it has done since; to
write it again gives the same document. Every condition reads back. -/
theorem readsBack_of_read {j : Json} {l : LoadedRule} (h : fromJson? j = some l) :
    (∀ stats, fromJson? (toJson { l with stats := stats }) = some l) ∧
    (∀ again : LoadedRule, fromJson? (toJson l) = some again → toJson again = toJson l) ∧
    ∀ c : Condition, fromJson? (toJson c) = some c := by
  -- What is read has done nothing, so its statistics are those that it is read back with.
  have hstats : l.stats = .empty := by
    obtain ⟨r, -, rfl⟩ := Option.map_eq_some_iff.mp h
    rfl
  refine ⟨fun stats => ?_, fun again hagain => ?_, Klaxon.fromJson?_toJson⟩
  · rw [fromJson?_toJson, ← hstats]
  · rw [fromJson?_toJson] at hagain
    obtain rfl := Option.some.inj hagain
    rfl

/-- A document that leaves out what it can, and uses other names and numbers where it may. -/
def terse : Json := Json.ofMembers
  [("id", .string "heat"), ("name", .string "Heat"), ("priority", .string "high"),
    ("condition", Json.ofMembers
      [("type", .string "logical"), ("operator", .string "AND"), ("children", .array
        [Json.ofMembers [("type", .int 1), ("field", .string "celsius"),
            ("operator", .string ">="), ("value", .int 60)],
          Json.ofMembers [("type", .string "comparison"), ("field", .string "site"),
            ("operator", .string "exists")]])]),
    ("actions", .array
      [Json.ofMembers [("type", .string "escalate"), ("recipients", .array [.string "guard"])]])]

/-- The rule that it tells. -/
def heat : LoadedRule where
  rule :=
    { id := "heat", name := "Heat", description := none, category := "general", version := 1
      priority := .high, enabled := true, eventPattern := "*"
      condition := .logical .and
        [.comparison "celsius" .gte (.int 60), .comparison "site" .present .null]
      actions := [.escalate ["guard"] .immediate], cooldownSecs := 0 }
  stats := .empty

/-- After it triggered it is written, and read again, as it was. -/
theorem heat_readsBack : fromJson? terse = some heat ∧
    fromJson? (toJson { heat with stats := ⟨7, 3, some .epoch⟩ }) = some heat := by
  have hread : fromJson? terse = some heat := by rfl
  exact ⟨hread, (readsBack_of_read hread).1 _⟩

end LoadedRule

end Klaxon
