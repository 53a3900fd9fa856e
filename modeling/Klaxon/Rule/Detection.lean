import Klaxon.Json.Path
import Klaxon.Rule.Definition

/-!
# Alerts from rules

`Rule.detect` builds the alert of a rule that triggered on an event. Its severity is the priority of
the rule and its location that of the event. The first `create_alert` action of the rule may give
templates for its type, title and message, which see the data of the event, with `event` and `rule`
beside it.
-/

namespace Klaxon

namespace Rule

/-- The templates of the first action that gives any. -/
def alertTemplates (r : Rule) : Option String × Option String × Option String :=
  (r.actions.findSome? fun
    | .createAlert alertType title message => some (alertType, title, message)
    | _ => none).getD (none, none, none)

/-- What the templates of a rule see of an event. -/
def templateContext (r : Rule) (event : Event) : Json :=
  let data := match event.data with
    | .object members => members
    | _ => []
  let aboutEvent := Json.ofMembers
    [("id", toJson event.id), ("type", toJson event.eventType),
      ("occurred_at", toJson event.occurredAt.offsetText)]
  let aboutRule := Json.ofMembers
    [("id", toJson r.id), ("name", toJson r.name), ("category", toJson r.category),
      ("priority", toJson r.priority)]
  -- The data does not hide the event or the rule, whose members are set last.
  .object (Json.Members.put "rule" aboutRule (Json.Members.put "event" aboutEvent data))

/-- The alert of a rule that triggered on an event. -/
def detect (r : Rule) (event : Event) (alertId : String) (now : Instant) : Alert :=
  let (alertType, title, message) := r.alertTemplates
  let context := r.templateContext event
  let render (template : Option String) (fallback : String) : String :=
    match template with
    | some t => Json.interpolate t context
    | none => fallback
  { id := alertId
    ruleId := some r.id
    eventId := some event.id
    alertType := render alertType r.category
    severity := r.priority
    title := render title r.name
    message := render message (r.description.getD
      ("Rule '" ++ r.name ++ "' matched event '" ++ event.eventType ++ "'"))
    detectedAt := now
    location := event.location
    context := event.data }

end Rule

end Klaxon
