import Klaxon.Channel.Basic
import Klaxon.Dispatch.Policy
import Klaxon.Message.Recipient
import Klaxon.Message.Template
import Klaxon.Rule.Codec
import Klaxon.Toml.Document

/-!
# The configuration of a server

A configuration names the channels, templates, recipients and rules of a server and sets how it
dispatches and what it keeps. `ServerConfig.ofToml` reads one from a TOML document and checks it;
the definitions inside are checked later, one by one, when the server is assembled.
-/

namespace Klaxon

/-- The numbers that tell a server from others. -/
structure ServerId where
  machine : Int
  node : Int
  deriving DecidableEq

namespace ServerId

/-- The numbers of a server that does not set them. -/
def standard : ServerId := ⟨1, 1⟩

/-- A signed word of 32 bits. -/
def word? : Json → Option Int := Json.intIn? (-Int.pow 2 31) (Int.pow 2 31)

instance : ToJson ServerId where
  toJson i := Json.ofMembers [("machine_id", toJson i.machine), ("node_id", toJson i.node)]

instance : FromJson ServerId where
  fromJson? j := do
    let r ← Record.read [field "machine_id", field "node_id"] j
    some ⟨← r.withDefaultBy "machine_id" standard.machine word?,
      ← r.withDefaultBy "node_id" standard.node word?⟩

/-- Whether both numbers have five bits. -/
def isValid (i : ServerId) : Bool :=
  decide (0 ≤ i.machine ∧ i.machine ≤ 31) && decide (0 ≤ i.node ∧ i.node ≤ 31)

end ServerId

/-- The configuration of a server. -/
structure ServerConfig where
  id : ServerId
  dispatch : Policy
  /-- How long finished messages can still be asked for. -/
  retentionSecs : UInt64
  /-- The seconds between two reports of the statistics; zero for none. -/
  statsSecs : UInt64
  /-- The notifications kept in the inbox of a recipient. -/
  inboxCapacity : UInt64
  channels : List ChannelSpec
  templates : List Template
  recipients : List Recipient
  rules : List Rule

/-- Why a configuration cannot be used. -/
inductive ConfigError where
  | unreadable (path : String)
  | malformed
  | badId (id : ServerId)
  | retentionTooLong (secs : UInt64)

namespace ServerConfig

/-- The longest retention, in seconds: ten years. -/
def maxRetentionSecs : UInt64 := 10 * 366 * 24 * 3600

/-- The configuration where none is given. -/
def standard : ServerConfig :=
  { id := .standard, dispatch := .standard, retentionSecs := 86400, statsSecs := 300,
    inboxCapacity := 200, channels := [], templates := [], recipients := [], rules := [] }

/-- The fields of a configuration. -/
def fields : List Field :=
  [field "id", field "dispatch", field "retention_secs", field "stats_log_interval_secs",
    field "inbox_capacity", field "channels", field "templates", field "recipients", field "rules"]

instance : ToJson ServerConfig where
  toJson c := Json.ofMembers
    [("id", toJson c.id), ("dispatch", toJson c.dispatch),
      ("retention_secs", toJson c.retentionSecs),
      ("stats_log_interval_secs", toJson c.statsSecs),
      ("inbox_capacity", toJson c.inboxCapacity), ("channels", toJson c.channels),
      ("templates", toJson c.templates), ("recipients", toJson c.recipients),
      ("rules", toJson c.rules)]

instance : FromJson ServerConfig where
  fromJson? j := do
    let r ← Record.read fields j
    some {
      id := ← r.withDefault "id" standard.id
      dispatch := ← r.withDefault "dispatch" standard.dispatch
      retentionSecs := ← r.withDefault "retention_secs" standard.retentionSecs
      statsSecs := ← r.withDefault "stats_log_interval_secs" standard.statsSecs
      inboxCapacity := ← r.withDefault "inbox_capacity" standard.inboxCapacity
      channels := ← r.withDefault "channels" []
      templates := ← r.withDefault "templates" []
      recipients := ← r.withDefault "recipients" []
      rules := ← r.withDefault "rules" [] }

end ServerConfig

/-! ## Doubles that JSON does not have -/

mutual

/-- A value in which `null` stands for every infinity and NaN. -/
def Json.finite : Json → Json
  | .float f => if f.isFinite then .float f else .null
  | .array items => .array (Json.finiteItems items)
  | .object members => .object (Json.finiteMembers members)
  | j => j

/-- The items in which `null` stands for every infinity and NaN. -/
def Json.finiteItems : List Json → List Json
  | [] => []
  | j :: rest => j.finite :: Json.finiteItems rest

/-- The members in which `null` stands for every infinity and NaN. -/
def Json.finiteMembers : List (String × Json) → List (String × Json)
  | [] => []
  | (name, j) :: rest => (name, j.finite) :: Json.finiteMembers rest

end

mutual

/-- A condition with finite literals. -/
def Condition.finite : Condition → Condition
  | .logical connective children => .logical connective (Condition.finiteAll children)
  | .comparison field operator value => .comparison field operator value.finite

/-- Conditions with finite literals. -/
def Condition.finiteAll : List Condition → List Condition
  | [] => []
  | c :: rest => c.finite :: Condition.finiteAll rest

end

/-- A template with finite values to compare with. -/
def Template.finite (t : Template) : Template :=
  { t with conditionals := t.conditionals.map fun c => { c with equals := c.equals.finite } }

namespace ServerConfig

/-- A configuration whose JSON values are finite. Numbers that are doubles by their type stay. -/
def finite (c : ServerConfig) : ServerConfig :=
  { c with
    channels := c.channels.map fun s => { s with config := s.config.finite }
    templates := c.templates.map Template.finite
    rules := c.rules.map fun r => { r with condition := r.condition.finite } }

/-- Checks the numbers of a configuration. -/
def validate (c : ServerConfig) : Except ConfigError Unit :=
  if !c.id.isValid then .error (.badId c.id)
  else if maxRetentionSecs < c.retentionSecs then .error (.retentionTooLong c.retentionSecs)
  else .ok ()

/-- Reads and checks a configuration. -/
def ofToml (text : String) : Except ConfigError ServerConfig := do
  match (Toml.ofText? text).bind (fromJson? : Json → Option ServerConfig) with
  | none => throw .malformed
  | some c =>
    c.validate
    .ok c.finite

/-- Reads and checks the configuration in a file, given what the file holds. -/
def ofFile (path : String) (content : Option String) : Except ConfigError ServerConfig :=
  match content with
  | none => .error (.unreadable path)
  | some text => ofToml text

end ServerConfig

/-- The wording of an error. -/
def ConfigError.message : ConfigError → String
  | .unreadable path => "Failed to read config file '" ++ path ++ "'"
  | .malformed => "The configuration is not well formed"
  | .badId id =>
    "id.machine_id and id.node_id must be in 0..=31 (got " ++ toString id.machine ++ " and " ++
      toString id.node ++ ")"
  | .retentionTooLong secs =>
    "retention_secs must be at most " ++ toString ServerConfig.maxRetentionSecs.toNat ++ " (got " ++
      toString secs.toNat ++ ")"

end Klaxon
