import Klaxon.Time.Text
import Klaxon.Vocabulary

/-!
# Events and alerts

An event says that something happened; its data is a JSON value that rules look into. An alert is
what a rule makes of an event: it never changes once it is built.
-/

namespace Klaxon

/-- A place on a site. -/
structure GeoLocation where
  latitude : Float
  longitude : Float
  altitude : Option Float
  label : Option String

namespace GeoLocation

/-- The fields of a location. -/
def fields : List Field :=
  [⟨"latitude", ["lat"]⟩, ⟨"longitude", ["lng", "lon"]⟩, field "altitude", field "label"]

instance : ToJson GeoLocation where
  toJson l := Json.ofMembers <|
    [("latitude", toJson l.latitude), ("longitude", toJson l.longitude)] ++
      Json.memberIfSome "altitude" l.altitude ++ Json.memberIfSome "label" l.label

instance : FromJson GeoLocation where
  fromJson? j := do
    let r ← Record.read fields j
    some {
      latitude := ← r.required "latitude"
      longitude := ← r.required "longitude"
      altitude := ← r.nullableOr "altitude"
      label := ← r.nullableOr "label" }

end GeoLocation

/-- Something that happened. -/
structure Event where
  id : String
  eventType : String
  occurredAt : Instant
  data : Json

namespace Event

/-- The fields of an event. -/
def fields : List Field := [field "id", field "event_type", field "occurred_at", field "data"]

/-- Reads an event; one without an id or a time gets the given ones. -/
def decode? (id : String) (now : Instant) (j : Json) : Option Event := do
  let r ← Record.read fields j
  some {
    id := ← r.withDefault "id" id
    eventType := ← r.required "event_type"
    occurredAt := ← r.withDefault "occurred_at" now
    data := ← r.withDefault "data" Json.null }

instance : ToJson Event where
  toJson e := Json.ofMembers
    [("id", toJson e.id), ("event_type", toJson e.eventType),
      ("occurred_at", toJson e.occurredAt), ("data", e.data)]

/-- The location that the data of an event carries, if it can be read. -/
def location (e : Event) : Option GeoLocation := (e.data.member? "location").bind fromJson?

end Event

/-- A situation of interest that was detected. -/
structure Alert where
  id : String
  ruleId : Option String
  eventId : Option String
  alertType : String
  severity : Severity
  title : String
  message : String
  detectedAt : Instant
  location : Option GeoLocation
  context : Json

namespace Alert

/-- The fields of an alert. -/
def fields : List Field :=
  [field "id", field "rule_id", field "event_id", field "type", field "severity", field "title",
    field "message", field "detected_at", field "location", field "context"]

instance : ToJson Alert where
  toJson a := Json.ofMembers <|
    [("id", toJson a.id), ("type", toJson a.alertType), ("severity", toJson a.severity),
      ("title", toJson a.title), ("message", toJson a.message),
      ("detected_at", toJson a.detectedAt), ("context", a.context)] ++
      Json.memberIfSome "rule_id" a.ruleId ++ Json.memberIfSome "event_id" a.eventId ++
      Json.memberIfSome "location" a.location

instance : FromJson Alert where
  fromJson? j := do
    let r ← Record.read fields j
    some {
      id := ← r.required "id"
      ruleId := ← r.nullableOr "rule_id"
      eventId := ← r.nullableOr "event_id"
      alertType := ← r.required "type"
      severity := ← r.required "severity"
      title := ← r.required "title"
      message := ← r.required "message"
      detectedAt := ← r.required "detected_at"
      location := ← r.nullableOr "location"
      context := ← r.withDefault "context" Json.null }

/-- An alert as templates and webhooks see it. -/
def templateContext (a : Alert) : Json := Json.ofMembers
  [("id", toJson a.id), ("rule_id", toJson a.ruleId), ("event_id", toJson a.eventId),
    ("type", toJson a.alertType), ("severity", toJson a.severity.name), ("title", toJson a.title),
    ("message", toJson a.message), ("detected_at", toJson a.detectedAt.offsetText),
    ("location", toJson a.location), ("context", a.context)]

end Alert

end Klaxon
