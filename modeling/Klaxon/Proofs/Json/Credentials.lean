import Klaxon.Json.Redaction

/-!
# What redaction hides

`redact_hidesCredentials` says that redaction hides the values under sensitive names, and nothing
else. Two values have the same redaction exactly if they are `Alike`: they differ only in what such
names hold. What is hidden is replaced as a whole, and every other place of a value is found again
in its redaction, with the same names, the same number of items, and the same leaves.

A name is `Sensitive` if a word for a credential occurs in its lower case; `isSensitive` decides
this (`isSensitive_iff`). Places are given by paths. A path that leads through no sensitive name is
`Open`, and along such a path redaction commutes with the walk (`valueAt?_redact`); all that is said
of places follows from this one law. `Alike` compares two values from their roots, as `redact` goes
through them.
-/

namespace Klaxon.Json

/-- A name that speaks of a credential: one of the words for them occurs in its lower case. -/
def Sensitive (name : String) : Prop :=
  ∃ word ∈ credentialWords, word.toList <:+: Text.foldCase name.toList

/-- The test of a name finds the words that occur. -/
theorem isSensitive_iff (name : String) : isSensitive name = true ↔ Sensitive name := by
  simp only [isSensitive, List.any_eq_true, Text.containsWord_iff, Sensitive]

mutual

/-- Two values differ only in what sensitive names hold. -/
inductive Alike : Json → Json → Prop where
  | same (j : Json) : Alike j j
  | array {xs ys : List Json} : AlikeItems xs ys → Alike (.array xs) (.array ys)
  | object {ms ns : List (String × Json)} : AlikeMembers ms ns → Alike (.object ms) (.object ns)

/-- Items differ only in what sensitive names hold, place by place. -/
inductive AlikeItems : List Json → List Json → Prop where
  | nil : AlikeItems [] []
  | cons {x y : Json} {xs ys : List Json} :
    Alike x y → AlikeItems xs ys → AlikeItems (x :: xs) (y :: ys)

/-- Members have the same names and differ only in what sensitive names hold. -/
inductive AlikeMembers : List (String × Json) → List (String × Json) → Prop where
  | nil : AlikeMembers [] []
  | hidden {name : String} {v w : Json} {ms ns : List (String × Json)} :
    Sensitive name → AlikeMembers ms ns →
      AlikeMembers ((name, v) :: ms) ((name, w) :: ns)
  | shown {name : String} {v w : Json} {ms ns : List (String × Json)} :
    Alike v w → AlikeMembers ms ns → AlikeMembers ((name, v) :: ms) ((name, w) :: ns)

end

/-- A step of a path: to the member of a name, or to an item. -/
inductive Selector where
  | member (name : String)
  | item (index : Nat)

/-- Where a step leads. -/
def select : Selector → Json → Option Json
  | .member name, .object members => Members.find? name members
  | .item index, .array items => items[index]?
  | _, _ => none

/-- The value at the end of a path. -/
def valueAt? : List Selector → Json → Option Json
  | [], j => some j
  | s :: path, j => (select s j).bind (valueAt? path)

/-- A path that leads through no sensitive name. -/
def Open (path : List Selector) : Prop := ∀ name, .member name ∈ path → ¬ Sensitive name

/-- Whether a value holds no other values. -/
def isLeaf (j : Json) : Bool := !j.isArray && !j.isObject

/-- The names of the members of an object. -/
def names? : Json → Option (List String)
  | .object members => some (members.map Prod.fst)
  | _ => none

/-- What redaction makes of a value. -/
structure HidesCredentials (j : Json) : Prop where
  /-- Nothing shows of what sensitive names hold, and everything else does. -/
  hides : ∀ j', redact j = redact j' ↔ Alike j j'
  /-- There is nothing left to hide. -/
  again : redact (redact j) = redact j
  /-- What a sensitive name holds is replaced. -/
  replaced : ∀ path name, Open path → Sensitive name →
    valueAt? (path ++ [.member name]) (redact j) =
      (valueAt? (path ++ [.member name]) j).map fun _ => .string "***"
  /-- Nothing is found below it any more. -/
  covered : ∀ path name s rest, Open path → Sensitive name →
    valueAt? (path ++ .member name :: s :: rest) (redact j) = none
  /-- The places that are not below a sensitive name are the same. -/
  places : ∀ path, Open path → (valueAt? path (redact j)).isSome = (valueAt? path j).isSome
  /-- The objects there have the same names. -/
  names : ∀ path, Open path → (valueAt? path (redact j)).bind names? = (valueAt? path j).bind names?
  /-- The arrays there have as many items. -/
  lengths : ∀ path, Open path →
    ((valueAt? path (redact j)).bind items?).map List.length =
      ((valueAt? path j).bind items?).map List.length
  /-- The leaves there are the same. -/
  leaves : ∀ path leaf, Open path → isLeaf leaf = true →
    (valueAt? path (redact j) = some leaf ↔ valueAt? path j = some leaf)

/-! ## Redaction, one constructor at a time -/

/-- Items are redacted one by one. -/
theorem redactItems_eq_map (items : List Json) : redactItems items = items.map redact := by
  induction items with
  | nil => rfl
  | cons x xs ih => rw [redactItems, ih, List.map_cons]

/-- Members keep their names and their order; what a sensitive name holds is replaced. -/
theorem redactMembers_eq_map (members : List (String × Json)) :
    redactMembers members =
      members.map fun m => (m.1, if isSensitive m.1 then redacted else redact m.2) := by
  induction members with
  | nil => rfl
  | cons m ms ih =>
    obtain ⟨name, v⟩ := m
    rw [redactMembers, ih, List.map_cons]

/-- A leaf stays as it is. -/
theorem redact_of_isLeaf {j : Json} (h : isLeaf j = true) : redact j = j := by
  cases j with
  | array items => simp [isLeaf, isArray, items?] at h
  | object members => simp [isLeaf, isObject] at h
  | _ => rfl

/-- Redaction makes no leaf out of an array or an object, nor the other way round. -/
theorem isLeaf_redact (j : Json) : isLeaf (redact j) = isLeaf j := by
  cases j <;> rfl

/-- An object keeps its names. -/
theorem names?_redact (j : Json) : names? (redact j) = names? j := by
  cases j with
  | object members =>
    rw [redact, names?, names?, redactMembers_eq_map, List.map_map]
    rfl
  | _ => rfl

/-- The items of an array are redacted where they stand. -/
theorem items?_redact (j : Json) : items? (redact j) = (items? j).map (List.map redact) := by
  cases j with
  | array items =>
    rw [redact, items?, items?, redactItems_eq_map]
    rfl
  | _ => rfl

/-- A member is found again, its value hidden or redacted. -/
theorem find?_redactMembers (name : String) (members : List (String × Json)) :
    Members.find? name (redactMembers members) =
      (Members.find? name members).map fun v =>
        if isSensitive name then redacted else redact v := by
  induction members with
  | nil => rfl
  | cons m ms ih =>
    obtain ⟨k, v⟩ := m
    rw [redactMembers, Members.find?, Members.find?, ih]
    -- The names are the same before and after, so the search stops at the same member.
    by_cases hk : k = name
    · subst hk
      rw [if_pos rfl, if_pos rfl, Option.map_some]
    · rw [if_neg hk, if_neg hk]

/-- Whether a step leads to what a sensitive name holds. -/
def Selector.isSensitive : Selector → Bool
  | .member name => Json.isSensitive name
  | .item _ => false

/-- A step out of a redacted value. -/
theorem select_redact (s : Selector) (j : Json) :
    select s (redact j) =
      (select s j).map fun v => if s.isSensitive then redacted else redact v := by
  cases s with
  | member name =>
    cases j with
    | object members => exact find?_redactMembers name members
    | _ => rfl
  | item index =>
    cases j with
    | array items =>
      simp only [redact, select, Selector.isSensitive, Bool.false_eq_true, if_false]
      rw [redactItems_eq_map, List.getElem?_map]
    | _ => rfl

/-! ## Places -/

/-- An open path has an open first step and goes on as an open path. -/
theorem Open.of_cons {s : Selector} {path : List Selector} (h : Open (s :: path)) :
    s.isSensitive = false ∧ Open path := by
  refine ⟨?_, fun name hmem => h name (List.mem_cons_of_mem s hmem)⟩
  cases s with
  | member name =>
    have hname : ¬ Sensitive name := h name List.mem_cons_self
    rw [← isSensitive_iff, Bool.not_eq_true] at hname
    exact hname
  | item index => rfl

/-- A longer path is walked in two parts. -/
theorem valueAt?_append (path rest : List Selector) (j : Json) :
    valueAt? (path ++ rest) j = (valueAt? path j).bind (valueAt? rest) := by
  induction path generalizing j with
  | nil => rfl
  | cons s path ih =>
    rw [List.cons_append, valueAt?, valueAt?, Option.bind_assoc]
    exact Option.bind_congr fun v _ => ih v

/-- At the end of an open path a redacted value has what the value has there, redacted. -/
theorem valueAt?_redact {path : List Selector} (h : Open path) (j : Json) :
    valueAt? path (redact j) = (valueAt? path j).map redact := by
  induction path generalizing j with
  | nil => rfl
  | cons s path ih =>
    obtain ⟨hs, hpath⟩ := h.of_cons
    have hstep : select s (redact j) = (select s j).map redact := by
      rw [select_redact, hs]
      rfl
    rw [valueAt?, valueAt?, hstep, Option.bind_map, Option.map_bind]
    exact Option.bind_congr fun v _ => ih hpath v

/-- What a sensitive name holds is replaced. -/
theorem valueAt?_redact_member {path : List Selector} (h : Open path) {name : String}
    (hname : Sensitive name) (j : Json) :
    valueAt? (path ++ [.member name]) (redact j) =
      (valueAt? (path ++ [.member name]) j).map fun _ => redacted := by
  have hstep : ∀ v : Json, valueAt? [.member name] (redact v) =
      (valueAt? [.member name] v).map fun _ => redacted := by
    intro v
    have hsensitive : (Selector.member name).isSensitive = true := (isSensitive_iff name).mpr hname
    rw [valueAt?, valueAt?, select_redact, hsensitive]
    cases select (.member name) v <;> rfl
  rw [valueAt?_append, valueAt?_append, valueAt?_redact h, Option.bind_map, Option.map_bind]
  exact Option.bind_congr fun v _ => hstep v

/-- Nothing is found below what was put in. -/
theorem valueAt?_redacted (s : Selector) (rest : List Selector) :
    valueAt? (s :: rest) redacted = none := by
  cases s <;> rfl

/-- What a redacted value has at the end of an open path is a leaf if the value has it there. -/
theorem redact_eq_leaf_iff {j leaf : Json} (h : isLeaf leaf = true) :
    redact j = leaf ↔ j = leaf := by
  constructor
  · intro hj
    have hleaf : isLeaf j = true := by rw [← isLeaf_redact, hj, h]
    rw [← redact_of_isLeaf hleaf, hj]
  · rintro rfl
    exact redact_of_isLeaf h

/-! ## Two values -/

mutual

/-- Values that differ only in what sensitive names hold have the same redaction. -/
theorem Alike.redact_eq : ∀ {a b : Json}, Alike a b → redact a = redact b
  | _, _, .same j => rfl
  | _, _, .array h => by rw [redact, redact, h.redactItems_eq]
  | _, _, .object h => by rw [redact, redact, h.redactMembers_eq]

/-- Items that differ only in what sensitive names hold have the same redaction. -/
theorem AlikeItems.redactItems_eq :
    ∀ {xs ys : List Json}, AlikeItems xs ys → redactItems xs = redactItems ys
  | _, _, .nil => rfl
  | _, _, .cons h hs => by rw [redactItems, redactItems, h.redact_eq, hs.redactItems_eq]

/-- Members that differ only in what sensitive names hold have the same redaction. -/
theorem AlikeMembers.redactMembers_eq :
    ∀ {ms ns : List (String × Json)}, AlikeMembers ms ns → redactMembers ms = redactMembers ns
  | _, _, .nil => rfl
  | _, _, .hidden hname hs => by
    rw [redactMembers, redactMembers, (isSensitive_iff _).mpr hname, hs.redactMembers_eq]
    rfl
  | _, _, .shown h hs => by
    rw [redactMembers, redactMembers, h.redact_eq, hs.redactMembers_eq]

end

/-- Only objects are redacted to objects. -/
theorem object_of_redact_eq {j : Json} {members : List (String × Json)}
    (h : redact j = .object members) : ∃ ms, j = .object ms ∧ redactMembers ms = members := by
  cases j with
  | object ms =>
    rw [redact, Json.object.injEq] at h
    exact ⟨ms, rfl, h⟩
  | _ => simp [redact] at h

/-- Only arrays are redacted to arrays. -/
theorem array_of_redact_eq {j : Json} {items : List Json} (h : redact j = .array items) :
    ∃ xs, j = .array xs ∧ redactItems xs = items := by
  cases j with
  | array xs =>
    rw [redact, Json.array.injEq] at h
    exact ⟨xs, rfl, h⟩
  | _ => simp [redact] at h

mutual

/-- Values with the same redaction differ only in what sensitive names hold. -/
theorem alike_of_redact_eq : ∀ {a b : Json}, redact a = redact b → Alike a b
  | .object ms, b, h => by
    obtain ⟨ns, rfl, hns⟩ := object_of_redact_eq h.symm
    exact .object (alikeMembers_of_redactMembers_eq hns.symm)
  | .array xs, b, h => by
    obtain ⟨ys, rfl, hys⟩ := array_of_redact_eq h.symm
    exact .array (alikeItems_of_redactItems_eq hys.symm)
  | .null, b, h => (redact_eq_leaf_iff rfl).mp h.symm ▸ .same .null
  | .bool x, b, h => (redact_eq_leaf_iff rfl).mp h.symm ▸ .same (.bool x)
  | .int i, b, h => (redact_eq_leaf_iff rfl).mp h.symm ▸ .same (.int i)
  | .float f, b, h => (redact_eq_leaf_iff rfl).mp h.symm ▸ .same (.float f)
  | .string s, b, h => (redact_eq_leaf_iff rfl).mp h.symm ▸ .same (.string s)

/-- Items with the same redaction differ only in what sensitive names hold. -/
theorem alikeItems_of_redactItems_eq :
    ∀ {xs ys : List Json}, redactItems xs = redactItems ys → AlikeItems xs ys
  | [], [], _ => .nil
  | [], y :: ys, h => by simp [redactItems] at h
  | x :: xs, [], h => by simp [redactItems] at h
  | x :: xs, y :: ys, h => by
    rw [redactItems, redactItems, List.cons.injEq] at h
    exact .cons (alike_of_redact_eq h.1) (alikeItems_of_redactItems_eq h.2)

/-- Members with the same redaction differ only in what sensitive names hold. -/
theorem alikeMembers_of_redactMembers_eq :
    ∀ {ms ns : List (String × Json)}, redactMembers ms = redactMembers ns → AlikeMembers ms ns
  | [], [], _ => .nil
  | [], n :: ns, h => by simp [redactMembers] at h
  | m :: ms, [], h => by simp [redactMembers] at h
  | (name, v) :: ms, (name', w) :: ns, h => by
    rw [redactMembers, redactMembers, List.cons.injEq, Prod.mk.injEq] at h
    obtain ⟨⟨rfl, hvalue⟩, hrest⟩ := h
    have hns := alikeMembers_of_redactMembers_eq hrest
    -- Under a sensitive name the values may be anything; under any other one they go on as values.
    cases hname : isSensitive name with
    | true => exact .hidden ((isSensitive_iff name).mp hname) hns
    | false =>
      rw [hname] at hvalue
      exact .shown (alike_of_redact_eq hvalue) hns

end

mutual

/-- A redacted value and the value itself differ only in what sensitive names hold. -/
theorem alike_redact : ∀ j : Json, Alike (redact j) j
  | .object ms => .object (alikeMembers_redactMembers ms)
  | .array xs => .array (alikeItems_redactItems xs)
  | .null => .same .null
  | .bool x => .same (.bool x)
  | .int i => .same (.int i)
  | .float f => .same (.float f)
  | .string s => .same (.string s)

/-- Redacted items and the items differ only in what sensitive names hold. -/
theorem alikeItems_redactItems : ∀ xs : List Json, AlikeItems (redactItems xs) xs
  | [] => .nil
  | x :: xs => .cons (alike_redact x) (alikeItems_redactItems xs)

/-- Redacted members and the members differ only in what sensitive names hold. -/
theorem alikeMembers_redactMembers :
    ∀ ms : List (String × Json), AlikeMembers (redactMembers ms) ms
  | [] => .nil
  | (name, v) :: ms => by
    have hms := alikeMembers_redactMembers ms
    rw [redactMembers]
    cases hname : isSensitive name with
    | true => exact .hidden ((isSensitive_iff name).mp hname) hms
    | false => exact .shown (alike_redact v) hms

end

/-- Redaction hides what sensitive names hold and keeps everything else: values that differ only
there cannot be told apart afterwards, and all other places of a value are as they were. -/
theorem redact_hidesCredentials (j : Json) : HidesCredentials j := by
  constructor
  · exact fun j' => ⟨alike_of_redact_eq, Alike.redact_eq⟩
  · exact (alike_redact j).redact_eq
  · exact fun path name hpath hname => valueAt?_redact_member hpath hname j
  · intro path name s rest hpath hname
    -- The path is cut behind the sensitive name, where the replacement stands.
    have hsplit : path ++ .member name :: s :: rest = (path ++ [.member name]) ++ (s :: rest) := by
      simp
    rw [hsplit, valueAt?_append, valueAt?_redact_member hpath hname, Option.bind_map]
    cases valueAt? (path ++ [.member name]) j with
    | none => rfl
    | some v => exact valueAt?_redacted s rest
  · intro path hpath
    rw [valueAt?_redact hpath, Option.isSome_map]
  · intro path hpath
    rw [valueAt?_redact hpath, Option.bind_map]
    exact Option.bind_congr fun v _ => names?_redact v
  · intro path hpath
    rw [valueAt?_redact hpath, Option.bind_map, Option.map_bind, Option.map_bind]
    refine Option.bind_congr fun v _ => ?_
    rw [Function.comp, Function.comp, Function.comp, items?_redact, Option.map_map]
    cases items? v with
    | none => rfl
    | some items => exact congrArg some (List.length_map redact)
  · intro path leaf hpath hleaf
    rw [valueAt?_redact hpath, Option.map_eq_some_iff]
    constructor
    · -- Only a leaf is redacted to a leaf, and that leaf is itself.
      rintro ⟨v, hv, hredact⟩
      rw [hv, (redact_eq_leaf_iff hleaf).mp hredact]
    · exact fun hv => ⟨leaf, hv, redact_of_isLeaf hleaf⟩

end Klaxon.Json
