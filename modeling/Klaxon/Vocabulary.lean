import Klaxon.Json.Record
import Klaxon.Text.CaseFold

/-!
# Severities, priorities and channel types

The three enumerations that rules, messages and channels share. `names` gives the names under which
documents know the values of each; severities and priorities are also read from texts of any case.
-/

namespace Klaxon

/-- A text that is not the name of a value of an enumeration. -/
inductive NameError where
  | severity (text : String)
  | priority (text : String)
  | channelType (text : String)
  | operator (text : String)

/-- The wording of the error. -/
def NameError.message : NameError → String
  | .severity text => "unknown severity: " ++ text
  | .priority text => "unknown priority: " ++ text
  | .channelType text => "unknown channel type: " ++ text
  | .operator text => "unknown compare operator: " ++ text

/-- How serious an alert is. -/
inductive Severity where
  | info
  | low
  | medium
  | high
  | critical
  deriving DecidableEq, Inhabited

namespace Severity

/-- All severities, the most serious first. -/
def all : List Severity := [.critical, .high, .medium, .low, .info]

/-- The place of a severity in the order of seriousness. -/
def rank : Severity → Nat
  | .info => 0
  | .low => 1
  | .medium => 2
  | .high => 3
  | .critical => 4

/-- The name of a severity. -/
def name : Severity → String
  | .info => "info"
  | .low => "low"
  | .medium => "medium"
  | .high => "high"
  | .critical => "critical"

/-- The severities by name. -/
def names : List (String × Severity) :=
  [("info", .info), ("low", .low), ("medium", .medium), ("high", .high), ("critical", .critical)]

/-- The severity of a name. -/
def ofName? (text : String) : Option Severity := names.lookup text

/-- The severity whose name a text is, in any case. -/
def ofText (text : String) : Except NameError Severity :=
  match names.lookup (String.ofList (Text.foldCase text.toList)) with
  | some s => .ok s
  | none => .error (.severity text)

instance : ToJson Severity := ⟨fun s => .string s.name⟩
instance : FromJson Severity := ⟨Json.nameIn? names⟩

/-- A severity is found under its name. -/
theorem lookup_name (s : Severity) : names.lookup s.name = some s := by cases s <;> decide

/-- No two severities are equally serious. -/
theorem rank_injective {a b : Severity} (h : a.rank = b.rank) : a = b := by
  cases a <;> cases b <;> first | rfl | exact absurd h (by decide)

end Severity

/-- The lane in which a message waits. -/
inductive Priority where
  | immediate
  | high
  | normal
  | low
  | batch
  deriving DecidableEq, Inhabited

namespace Priority

/-- All priorities, in the order in which their lanes are drained. -/
def all : List Priority := [.immediate, .high, .normal, .low, .batch]

/-- The place of a priority in the order of draining. -/
def index : Priority → Nat
  | .immediate => 0
  | .high => 1
  | .normal => 2
  | .low => 3
  | .batch => 4

/-- The name of a priority. -/
def name : Priority → String
  | .immediate => "immediate"
  | .high => "high"
  | .normal => "normal"
  | .low => "low"
  | .batch => "batch"

/-- The priorities by name. -/
def names : List (String × Priority) :=
  [("immediate", .immediate), ("high", .high), ("normal", .normal), ("low", .low),
    ("batch", .batch)]

/-- The priority of a name. -/
def ofName? (text : String) : Option Priority := names.lookup text

/-- The priority whose name a text is, in any case. -/
def ofText (text : String) : Except NameError Priority :=
  match names.lookup (String.ofList (Text.foldCase text.toList)) with
  | some p => .ok p
  | none => .error (.priority text)

instance : ToJson Priority := ⟨fun p => .string p.name⟩
instance : FromJson Priority := ⟨Json.nameIn? names⟩

/-- A priority is found under its name. -/
theorem lookup_name (p : Priority) : names.lookup p.name = some p := by cases p <;> decide

/-- The list of priorities is complete. -/
theorem mem_all (p : Priority) : p ∈ all := by cases p <;> decide

end Priority

/-- The means by which a channel delivers. -/
inductive ChannelType where
  | email
  | sms
  | webhook
  | push
  | inApp
  | chat
  deriving DecidableEq, Inhabited

namespace ChannelType

/-- All channel types in their order. -/
def all : List ChannelType := [.email, .sms, .webhook, .push, .inApp, .chat]

/-- The name of a channel type. -/
def name : ChannelType → String
  | .email => "email"
  | .sms => "sms"
  | .webhook => "webhook"
  | .push => "push"
  | .inApp => "in_app"
  | .chat => "chat"

/-- The name of a channel type in a description of a channel. -/
def label : ChannelType → String
  | .email => "Email"
  | .sms => "Sms"
  | .webhook => "Webhook"
  | .push => "Push"
  | .inApp => "InApp"
  | .chat => "Chat"

/-- The channel types by name. -/
def names : List (String × ChannelType) :=
  [("email", .email), ("sms", .sms), ("webhook", .webhook), ("push", .push), ("in_app", .inApp),
    ("chat", .chat)]

/-- The channel type of a name. -/
def ofName? (text : String) : Option ChannelType := names.lookup text

/-- The channel type whose name a text is. -/
def ofText (text : String) : Except NameError ChannelType :=
  match names.lookup text with
  | some t => .ok t
  | none => .error (.channelType text)

instance : ToJson ChannelType := ⟨fun t => .string t.name⟩
instance : FromJson ChannelType := ⟨Json.nameIn? names⟩

/-- A channel type is found under its name. -/
theorem lookup_name (t : ChannelType) : names.lookup t.name = some t := by cases t <;> decide

end ChannelType

end Klaxon
