import Klaxon.Channel.Basic
import Klaxon.Json.Redaction
import Klaxon.Transport.Basic

/-!
# Plugins

A plugin knows how to make the transport of one channel type from the settings of a channel. The
plugins are a table by channel type; `Plugins.buildChannel` checks the settings of a channel, makes
its transport, and then the channel.
-/

namespace Klaxon

/-- How transports for one channel type are made; `τ` is the type of the transports. -/
structure Plugin (τ : Type) where
  channelType : ChannelType
  /-- What the addresses of recipients are. -/
  recipientType : String
  validate : Json → Except DispatchError Unit
  /-- The transport of a channel, by its id and settings, with the channel type that it handles. -/
  create : String → Json → Except DispatchError (ChannelType × τ)

/-- Plugins, at most one for each channel type. -/
abbrev Plugins (τ : Type) := List (Plugin τ)

namespace Plugins

variable {τ : Type}

/-- The plugin for a channel type. -/
def get? (ps : Plugins τ) (t : ChannelType) : Option (Plugin τ) :=
  ps.find? fun p => p.channelType == t

/-- Adds a plugin in the place of the one for its channel type. -/
def register (ps : Plugins τ) (p : Plugin τ) : Plugins τ :=
  ps.filter (fun q => q.channelType != p.channelType) ++ [p]

/-- The channel types that there are plugins for. -/
def channelTypes (ps : Plugins τ) : List ChannelType :=
  ChannelType.all.filter fun t => (ps.get? t).isSome

/-- Makes the transport for a channel, and tells the channel type that it handles. -/
def makeTransport (ps : Plugins τ) (spec : ChannelSpec) :
    Except DispatchError (ChannelType × τ) :=
  match ps.get? spec.channelType with
  | none => .error (.unknownChannelType spec.channelType.name)
  | some p => do
    p.validate spec.config
    p.create spec.id spec.config

/-- The transport for a channel. -/
def createTransport (ps : Plugins τ) (spec : ChannelSpec) : Except DispatchError τ :=
  (ps.makeTransport spec).map Prod.snd

/-- Makes a channel and its transport. -/
def buildChannel (ps : Plugins τ) (spec : ChannelSpec) : Except DispatchError (Channel × τ) := do
  let (handles, transport) ← ps.makeTransport spec
  let channel ← Channel.create spec handles
  .ok (channel, transport)

/-- Whether a text is taken for the address of a web service. -/
def looksLikeUrl (url : String) : Bool := "http".toList.isPrefixOf url.toList

/-- Checks the settings for mail; gives them with the sender. -/
def checkMail (config : Json) : Except DispatchError (MailSettings × Mailbox) := do
  let settings : MailSettings ← Settings.decode "email" config
  if Text.isBlankText settings.host then throw (.invalidConfig "email: smtp_host is empty")
  match Mailbox.ofText? settings.sender with
  | some sender => .ok (settings, sender)
  | none => .error (.invalidConfig "email: invalid from address")

/-- Checks the settings for text messages. -/
def checkSms (config : Json) : Except DispatchError SmsSettings := do
  let settings : SmsSettings ← Settings.decode "sms" config
  if looksLikeUrl settings.gatewayUrl then .ok settings
  else
    .error (.invalidConfig
      ("sms: gateway_url '" ++ settings.gatewayUrl ++ "' is not an http(s) URL"))

/-- Checks the settings for webhooks. -/
def checkWebhook (config : Json) : Except DispatchError WebhookSettings := do
  let settings : WebhookSettings ← Settings.decode "webhook" config
  match settings.url with
  | none => .ok settings
  | some url =>
    if looksLikeUrl url then .ok settings
    else .error (.invalidConfig ("webhook: url '" ++ url ++ "' is not an http(s) URL"))

/-- Checks the settings for chat robots. -/
def checkChat (config : Json) : Except DispatchError ChatSettings := do
  let settings : ChatSettings ← Settings.decode "chat" config
  if looksLikeUrl settings.webhookUrl then .ok settings
  else
    .error (.invalidConfig
      ("chat: webhook_url '" ++ settings.webhookUrl ++ "' is not an http(s) URL"))

/-- A plugin that checks settings and keeps them. -/
def ofCheck {α : Type} (t : ChannelType) (recipientType : String)
    (check : Json → Except DispatchError α) (make : α → Transport) : Plugin Transport :=
  { channelType := t
    recipientType
    validate := fun config => (check config).map fun _ => ()
    -- The settings are checked again, for whoever makes a transport without asking `validate`
    -- first.
    create := fun _ config => (check config).map fun settings => (t, make settings) }

/-- The plugins that are always there. -/
def builtin : Plugins Transport :=
  [ofCheck .email "email" checkMail fun (settings, sender) => .mail settings sender,
    ofCheck .sms "phone" checkSms .sms,
    ofCheck .webhook "webhook_url" checkWebhook .webhook,
    ofCheck .push "device_token" (Settings.decode "push") .push,
    ofCheck .inApp "user_id" (fun _ => .ok ()) fun _ => .inApp,
    ofCheck .chat "webhook_url" checkChat .chat]

end Plugins

end Klaxon
