import Klaxon.Dispatch.Error
import Klaxon.Transport.Mail

/-!
# Settings of transports

What the definition of a channel says about its transport. Settings that are `null` read as an empty
record. `decode` names the kind of settings that cannot be read.
-/

namespace Klaxon

/-- The seconds that a transport waits for an answer, where nothing else is said. -/
def standardTimeout : UInt64 := 10

/-- How the connection to a mail relay is secured. -/
inductive MailSecurity where
  | tls
  | startTls
  | none
  deriving DecidableEq

/-- The ways to secure a connection by name. -/
def MailSecurity.names : List (String × MailSecurity) :=
  [("tls", .tls), ("start_tls", .startTls), ("none", .none)]

/-- Settings for mail. -/
structure MailSettings where
  host : String
  port : UInt16
  username : Option String
  password : Option String
  sender : String
  security : MailSecurity
  timeoutSecs : UInt64

instance : FromJson MailSettings where
  fromJson? j := do
    let r ← Record.read
      [field "smtp_host", field "smtp_port", field "smtp_username", field "smtp_password",
        field "from", field "security", field "timeout_secs"] j
    some {
      host := ← r.required "smtp_host"
      port := ← r.withDefault "smtp_port" 465
      username := ← r.nullable "smtp_username"
      password := ← r.nullable "smtp_password"
      sender := ← r.required "from"
      security := ← r.withDefaultBy "security" .tls (Json.nameIn? MailSecurity.names)
      timeoutSecs := ← r.withDefault "timeout_secs" standardTimeout }

/-- Settings for text messages. -/
structure SmsSettings where
  gatewayUrl : String
  apiKey : String
  sender : Option String
  timeoutSecs : UInt64

instance : FromJson SmsSettings where
  fromJson? j := do
    let r ← Record.read
      [field "gateway_url", field "api_key", field "sender", field "timeout_secs"] j
    some {
      gatewayUrl := ← r.required "gateway_url"
      apiKey := ← r.required "api_key"
      sender := ← r.nullable "sender"
      timeoutSecs := ← r.withDefault "timeout_secs" standardTimeout }

/-- Settings for push messages. -/
structure PushSettings where
  gatewayUrl : String
  apiKey : String
  timeoutSecs : UInt64

instance : FromJson PushSettings where
  fromJson? j := do
    let r ← Record.read [field "gateway_url", field "api_key", field "timeout_secs"] j
    some {
      gatewayUrl := ← r.required "gateway_url"
      apiKey := ← r.required "api_key"
      timeoutSecs := ← r.withDefault "timeout_secs" standardTimeout }

/-- Settings for webhooks. -/
structure WebhookSettings where
  url : Option String
  secret : Option String
  /-- What the payload says has happened. -/
  event : String
  /-- Headers by name, in the order of the names. -/
  headers : List (String × String)
  timeoutSecs : UInt64

instance : FromJson WebhookSettings where
  fromJson? j := do
    let r ← Record.read
      [field "url", field "secret", field "event", field "headers", field "timeout_secs"] j
    some {
      url := ← r.nullable "url"
      secret := ← r.nullable "secret"
      event := ← r.withDefault "event" "alert.triggered"
      headers := ← r.withDefaultBy "headers" [] (Json.mapOf? some fromJson?)
      timeoutSecs := ← r.withDefault "timeout_secs" standardTimeout }

/-- Whose robots a chat channel talks to. -/
inductive ChatFlavor where
  | dingTalk
  | weCom
  | slack
  deriving DecidableEq

namespace ChatFlavor

/-- The name of a flavor. -/
def name : ChatFlavor → String
  | .dingTalk => "dingtalk"
  | .weCom => "wecom"
  | .slack => "slack"

/-- The flavors by name. -/
def names : List (String × ChatFlavor) :=
  [("dingtalk", .dingTalk), ("wecom", .weCom), ("slack", .slack)]

/-- A flavor is found under its name. -/
theorem lookup_name (f : ChatFlavor) : names.lookup f.name = some f := by cases f <;> decide

end ChatFlavor

/-- Settings for chat robots. -/
structure ChatSettings where
  webhookUrl : String
  flavor : ChatFlavor
  secret : Option String
  timeoutSecs : UInt64

instance : FromJson ChatSettings where
  fromJson? j := do
    let r ← Record.read
      [field "webhook_url", field "flavor", field "secret", field "timeout_secs"] j
    some {
      webhookUrl := ← r.required "webhook_url"
      flavor := ← r.requiredBy "flavor" (Json.nameIn? ChatFlavor.names)
      secret := ← r.nullable "secret"
      timeoutSecs := ← r.withDefault "timeout_secs" standardTimeout }

namespace Settings

/-- Reads settings of a kind. -/
def decode {α : Type} [FromJson α] (kind : String) (config : Json) : Except DispatchError α :=
  let config := if config.isNull then .object [] else config
  match fromJson? config with
  | some settings => .ok settings
  | none => .error (.invalidConfig ("invalid " ++ kind ++ " config"))

end Settings

end Klaxon
