import Klaxon.Time.Text
import Klaxon.Vocabulary

/-!
# Recipients

A recipient has an address per channel type and says by which channel types it wants alerts of each
severity. `Recipient.channelsFor` gives those in their order, without the ones that are switched off
or have no address, each once. In its quiet hours a recipient gets critical alerts only.

A directory holds recipients by id.
-/

namespace Klaxon

/-- A daily window in UTC, both ends included. One that starts after its end goes over midnight. -/
structure QuietHours where
  start : TimeOfDay
  stop : TimeOfDay

namespace QuietHours

instance : ToJson QuietHours where
  toJson q := Json.ofMembers [("start", toJson q.start), ("end", toJson q.stop)]

instance : FromJson QuietHours where
  fromJson? j := do
    let r ← Record.read [field "start", field "end"] j
    some ⟨← r.required "start", ← r.required "end"⟩

/-- Whether an instant lies in the window. -/
def isActive (q : QuietHours) (now : Instant) : Bool :=
  let t := now.timeOfDay
  -- The second case is a window over midnight.
  if q.start.le q.stop then q.start.le t && t.le q.stop else q.start.le t || t.le q.stop

end QuietHours

/-- Who gets messages. -/
structure Recipient where
  id : String
  name : String
  locale : Option String
  contacts : List (ChannelType × String)
  /-- The channel types that are switched on or off; the others are on. -/
  preferences : List (ChannelType × Bool)
  /-- The channel types for alerts of each severity. -/
  severityThresholds : List (Severity × List ChannelType)
  quietHours : Option QuietHours
  maxPerHour : Option UInt32
  maxPerDay : Option UInt32

namespace Recipient

/-- The fields of a recipient. -/
def fields : List Field :=
  [field "id", field "name", field "locale", field "contacts", field "preferences",
    field "severity_thresholds", field "quiet_hours", field "max_notifications_per_hour",
    field "max_notifications_per_day"]

/-- Reads whether a channel type is switched on. -/
def preference? (j : Json) : Option Bool := do
  let r ← Record.read [field "enabled"] j
  r.withDefault "enabled" true

/-- Writes whether a channel type is switched on. -/
def preferenceJson (enabled : Bool) : Json := Json.ofMembers [("enabled", .bool enabled)]

instance : ToJson Recipient where
  toJson r := Json.ofMembers <|
    [("id", toJson r.id), ("name", toJson r.name),
      ("contacts", Json.ofMap ChannelType.name toJson r.contacts),
      ("preferences", Json.ofMap ChannelType.name preferenceJson r.preferences),
      ("severity_thresholds", Json.ofMap Severity.name toJson r.severityThresholds)] ++
      Json.memberIfSome "locale" r.locale ++ Json.memberIfSome "quiet_hours" r.quietHours ++
      Json.memberIfSome "max_notifications_per_hour" r.maxPerHour ++
      Json.memberIfSome "max_notifications_per_day" r.maxPerDay

instance : FromJson Recipient where
  fromJson? j := do
    let r ← Record.read fields j
    let byType {α : Type} (name : String) (value : Json → Option α) :=
      r.withDefaultBy name [] (Json.mapOf? ChannelType.ofName? value)
    some {
      id := ← r.required "id"
      name := ← r.required "name"
      locale := ← r.nullableOr "locale"
      contacts := ← byType "contacts" fromJson?
      preferences := ← byType "preferences" preference?
      severityThresholds := ← r.withDefaultBy "severity_thresholds" []
        (Json.mapOf? Severity.ofName? fromJson?)
      quietHours := ← r.nullableOr "quiet_hours"
      maxPerHour := ← r.nullableOr "max_notifications_per_hour"
      maxPerDay := ← r.nullableOr "max_notifications_per_day" }

/-- The address for a channel type, unless it is blank. -/
def address? (r : Recipient) (channelType : ChannelType) : Option String :=
  match r.contacts.lookup channelType with
  | some a => if Text.isBlankText a then none else some a
  | none => none

/-- Whether a channel type is switched on. -/
def channelEnabled (r : Recipient) (channelType : ChannelType) : Bool :=
  (r.preferences.lookup channelType).getD true

/-- Whether an alert can go out by a channel type. -/
def canReceive (r : Recipient) (channelType : ChannelType) : Bool :=
  r.channelEnabled channelType && (r.address? channelType).isSome

/-- Keeps the first of equal channel types. -/
def firstOccurrences (types : List ChannelType) : List ChannelType :=
  types.foldl (fun out t => if out.contains t then out else out ++ [t]) []

/-- The channel types for alerts of a severity. -/
def channelsFor (r : Recipient) (severity : Severity) : List ChannelType :=
  firstOccurrences (((r.severityThresholds.lookup severity).getD []).filter r.canReceive)

/-- Whether an instant lies in the quiet hours. -/
def inQuietHours (r : Recipient) (now : Instant) : Bool :=
  match r.quietHours with
  | some q => q.isActive now
  | none => false

/-- A recipient as templates see it. -/
def templateContext (r : Recipient) : Json := Json.ofMembers
  [("id", toJson r.id), ("name", toJson r.name), ("locale", toJson r.locale)]

end Recipient

/-- Recipients by id. -/
abbrev Directory := List (String × Recipient)

namespace Directory

/-- A recipient by id. -/
def get? (d : Directory) (id : String) : Option Recipient := d.lookup id

/-- Adds a recipient, or replaces the one of its id. -/
def upsert : Directory → Recipient → Directory
  | [], r => [(r.id, r)]
  | (id, old) :: rest, r => if id = r.id then (id, r) :: rest else (id, old) :: upsert rest r

/-- Removes a recipient; gives it if it was there. -/
def remove (d : Directory) (id : String) : Directory × Option Recipient :=
  (d.filter fun e => e.1 != id, d.get? id)

/-- The directory of a list of recipients; the last one of an id counts. -/
def ofList (recipients : List Recipient) : Directory := recipients.foldl upsert []

end Directory

end Klaxon
