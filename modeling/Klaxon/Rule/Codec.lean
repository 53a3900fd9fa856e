import Klaxon.Rule.Definition

/-!
# Rules as documents

Conditions and actions are records with the tag `type`. Like other records they may also be arrays:
the tag comes first, and behind it the fields that it has, in the order of their declaration. Below
the top of a tree the tag of a condition may also be its number, 0 for `logical` and 1 for
`comparison`. Statistics are no part of the document of a rule.
-/

namespace Klaxon

namespace Condition

/-- The kinds of conditions. -/
inductive Tag where
  | logical
  | comparison

/-- The kind that a tag names. -/
def tag? (nested : Bool) : Json → Option Tag
  | .string s =>
    if s = "logical" then some .logical
    else if s = "comparison" then some .comparison
    else none
  | .int i =>
    if nested && i == 0 then some .logical
    else if nested && i == 1 then some .comparison
    else none
  | _ => none

/-- Reads a comparison out of the document of its fields. -/
def comparisonOf? (j : Json) : Option Condition := do
  let r ← Record.read [field "field", field "operator", field "value"] j
  some (.comparison (← r.required "field")
    (← r.requiredBy "operator" (Json.nameInTagged? Operator.names))
    (← r.withDefault "value" Json.null))

mutual

/-- Reads a condition. -/
def ofJson? (nested : Bool) : Json → Option Condition
  | .object members =>
    match (Json.Members.find? "type" members).bind (tag? nested) with
    | some .logical => do
      let connective ← (Json.Members.find? "operator" members).bind
        (Json.nameInTagged? Connective.names)
      some (.logical connective (← childrenOf? members))
    | some .comparison => comparisonOf? (.object members)
    | none => none
  | .array (tag :: fields) =>
    match tag? nested tag with
    | some .logical =>
      -- Neither of the two fields has a default, so that none may be left off at the end.
      match fields with
      | [connective, .array items] => do
        some (.logical (← Json.nameInTagged? Connective.names connective) (← ofItems? items))
      | _ => none
    | some .comparison => comparisonOf? (.array fields)
    | none => none
  | _ => none

/-- Reads the conditions under the member `children`. -/
def childrenOf? : List (String × Json) → Option (List Condition)
  | [] => none
  | (k, v) :: rest =>
    if k = "children" then
      match v with
      | .array items => ofItems? items
      | _ => none
    else childrenOf? rest

/-- Reads the conditions in a list. -/
def ofItems? : List Json → Option (List Condition)
  | [] => some []
  | j :: rest => do
    let c ← ofJson? true j
    let cs ← ofItems? rest
    some (c :: cs)

end

mutual

/-- Writes a condition. -/
def encode : Condition → Json
  | .logical connective children => Json.ofMembers
    [("type", .string "logical"), ("operator", .string connective.name),
      ("children", .array (encodeAll children))]
  | .comparison field operator value => Json.ofMembers
    [("type", .string "comparison"), ("field", .string field),
      ("operator", .string operator.name), ("value", value)]

/-- Writes conditions. -/
def encodeAll : List Condition → List Json
  | [] => []
  | c :: cs => encode c :: encodeAll cs

end

instance : ToJson Condition := ⟨encode⟩
instance : FromJson Condition := ⟨ofJson? false⟩

end Condition

namespace Action

/-- Writes an action. -/
def encode : Action → Json
  | .createAlert alertType title message => Json.ofMembers
    [("type", .string "create_alert"), ("alert_type", toJson alertType), ("title", toJson title),
      ("message", toJson message)]
  | .notify recipients => Json.ofMembers
    [("type", .string "notify"), ("recipients", toJson recipients)]
  | .webhookCall channelId url => Json.ofMembers
    [("type", .string "webhook_call"), ("channel_id", .string channelId), ("url", toJson url)]
  | .escalate recipients priority => Json.ofMembers
    [("type", .string "escalate"), ("recipients", toJson recipients),
      ("priority", toJson priority)]

/-- The tag of an action, and the document of its fields. -/
def untag? : Json → Option (String × Json)
  | .object members => do
    some (← (Json.Members.find? "type" members).bind Json.text?, .object members)
  | .array (.string tag :: fields) => some (tag, .array fields)
  | _ => none

/-- Reads an action. -/
def ofJson? (j : Json) : Option Action := do
  let (tag, rest) ← untag? j
  match tag with
  | "create_alert" => do
    let r ← Record.read [field "alert_type", field "title", field "message"] rest
    some (.createAlert (← r.nullableOr "alert_type") (← r.nullableOr "title")
      (← r.nullableOr "message"))
  | "notify" => do
    let r ← Record.read [field "recipients"] rest
    some (.notify (← r.required "recipients"))
  | "webhook_call" => do
    let r ← Record.read [field "channel_id", field "url"] rest
    some (.webhookCall (← r.required "channel_id") (← r.nullableOr "url"))
  | "escalate" => do
    let r ← Record.read [field "recipients", field "priority"] rest
    some (.escalate (← r.required "recipients")
      (← r.withDefaultBy "priority" .immediate (Json.nameInTagged? Priority.names)))
  | _ => none

instance : ToJson Action := ⟨encode⟩
instance : FromJson Action := ⟨ofJson?⟩

end Action

namespace Rule

/-- The fields of a rule. -/
def fields : List Field :=
  [field "id", field "name", field "description", field "category", field "version",
    field "priority", field "enabled", field "event_pattern", field "condition", field "actions",
    field "cooldown_secs"]

/-- Reads a rule. -/
def ofJson? (j : Json) : Option Rule := do
  let r ← Record.read fields j
  some {
    id := ← r.required "id"
    name := ← r.required "name"
    description := ← r.nullableOr "description"
    category := ← r.withDefault "category" "general"
    version := ← r.withDefault "version" 1
    priority := ← r.required "priority"
    enabled := ← r.withDefault "enabled" true
    eventPattern := ← r.withDefault "event_pattern" "*"
    condition := ← r.required "condition"
    actions := ← r.withDefault "actions" []
    cooldownSecs := ← r.withDefault "cooldown_secs" 0 }

/-- Writes a rule. -/
def encode (r : Rule) : Json := Json.ofMembers
  [("id", toJson r.id), ("name", toJson r.name), ("description", toJson r.description),
    ("category", toJson r.category), ("version", toJson r.version),
    ("priority", toJson r.priority), ("enabled", toJson r.enabled),
    ("event_pattern", toJson r.eventPattern), ("condition", toJson r.condition),
    ("actions", toJson r.actions), ("cooldown_secs", toJson r.cooldownSecs)]

instance : ToJson Rule := ⟨encode⟩
instance : FromJson Rule := ⟨ofJson?⟩

end Rule

end Klaxon
