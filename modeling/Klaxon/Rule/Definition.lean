import Klaxon.Event
import Klaxon.Rule.Condition

/-!
# Rules

A rule pairs a condition with the actions to take when it holds, for the events whose type fits its
pattern. `Rule.validate` checks a rule on every load and update and names the first thing wrong with
it.
-/

namespace Klaxon

/-- What is done when a rule triggers. -/
inductive Action where
  /-- Gives the alert its texts, each a template over the event. -/
  | createAlert (alertType title message : Option String)
  /-- Sends the alert to recipients at the priority of its severity. -/
  | notify (recipients : List String)
  /-- Posts the alert to a webhook channel. -/
  | webhookCall (channelId : String) (url : Option String)
  /-- Sends the alert to recipients at a priority of its own. -/
  | escalate (recipients : List String) (priority : Priority)

/-- The definition of a rule. -/
structure Rule where
  id : String
  name : String
  description : Option String
  category : String
  version : UInt32
  priority : Severity
  enabled : Bool
  eventPattern : String
  condition : Condition
  actions : List Action
  /-- The least number of seconds between two triggers. -/
  cooldownSecs : UInt64

/-- What is wrong with the definition of a rule, its condition apart. -/
inductive DefinitionFault where
  | emptyId
  | emptyPattern
  | cooldownTooLong (secs : UInt64)
  | noRecipient
  | noChannel

/-- An error in loading or changing rules. -/
inductive RuleError where
  | malformedCondition (ruleId : String) (fault : Condition.Fault)
  | noLeaf (ruleId : String)
  | duplicateId (ruleId : String)
  | notFound (ruleId : String)
  | invalidDefinition (ruleId : String) (fault : DefinitionFault)

namespace Rule

/-- The longest cooldown, in seconds: 366 days. -/
def maxCooldownSecs : UInt64 := 31622400

/-- Whether the rule looks at events of a type. -/
def fitsEventType (r : Rule) (eventType : String) : Bool :=
  r.eventPattern == "*" || Text.Glob.fits r.eventPattern eventType

/-- The fault of an action. -/
def actionFault? : Action → Option DefinitionFault
  | .notify [] => some .noRecipient
  | .escalate [] _ => some .noRecipient
  | .webhookCall channelId _ => if Text.isBlankText channelId then some .noChannel else none
  | _ => none

/-- The error in the condition of a rule. A disabled rule may have a tree without comparisons. -/
def conditionError? (r : Rule) : Option RuleError :=
  if r.condition.leafCount = 0 then
    if r.enabled then some (.noLeaf r.id) else none
  else
    match r.condition.validate with
    | .error fault => some (.malformedCondition r.id fault)
    | .ok () => none

/-- Checks a definition. -/
def validate (r : Rule) : Except RuleError Unit :=
  if Text.isBlankText r.id then .error (.invalidDefinition r.id .emptyId)
  else if Text.isBlankText r.eventPattern then .error (.invalidDefinition r.id .emptyPattern)
  else if maxCooldownSecs < r.cooldownSecs then
    .error (.invalidDefinition r.id (.cooldownTooLong r.cooldownSecs))
  else
    match r.conditionError? with
    | some e => .error e
    | none =>
      match r.actions.findSome? actionFault? with
      | some fault => .error (.invalidDefinition r.id fault)
      | none => .ok ()

/-- The verdict of a rule on the data of an event; a disabled rule never holds. -/
def evaluate (r : Rule) (context : Json) : Bool := r.enabled && r.condition.evaluate context

end Rule

/-- The wording of a fault in a definition. -/
def DefinitionFault.message : DefinitionFault → String
  | .emptyId => "id must not be empty"
  | .emptyPattern => "event_pattern must not be empty"
  | .cooldownTooLong secs =>
    "cooldown_secs " ++ toString secs.toNat ++ " exceeds the maximum of " ++
      toString Rule.maxCooldownSecs.toNat
  | .noRecipient => "notify/escalate action needs at least one recipient"
  | .noChannel => "webhook_call action needs a channel_id"

/-- The wording of an error. -/
def RuleError.message : RuleError → String
  | .malformedCondition ruleId fault =>
    "Rule: malformed condition in rule '" ++ ruleId ++ "': " ++ fault.message
  | .noLeaf ruleId => "Rule: rule '" ++ ruleId ++ "' has no comparison leaf and cannot be enabled"
  | .duplicateId ruleId => "Rule: duplicate rule id '" ++ ruleId ++ "'"
  | .notFound ruleId => "Rule: rule '" ++ ruleId ++ "' not found"
  | .invalidDefinition ruleId fault =>
    "Rule: invalid definition of rule '" ++ ruleId ++ "': " ++ fault.message

end Klaxon
