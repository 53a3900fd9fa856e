import Klaxon.Digest.Signature
import Klaxon.Json.Path
import Klaxon.Json.Reader
import Klaxon.Text.Percent
import Klaxon.Transport.Http
import Klaxon.Transport.Inbox
import Klaxon.Transport.Settings

/-!
# Transports

A transport makes one attempt to deliver a message. `Transport.deliver` is a function of the world
outside, given by what it answers to requests and mail, and of the inbox that in-app messages go to.

Each kind of transport has its payload: the functions `payload` below give the JSON that is posted.
-/

namespace Klaxon

/-- What is outside: how it answers to a request and to mail. -/
structure Outside where
  /-- The answer to a request, if one comes. -/
  post : Http.Request → Option Http.Response
  /-- The answer of a relay to mail. -/
  mail : MailSettings → Mail → Mail.Answer
  /-- Whether a relay takes connections. -/
  relayAnswers : MailSettings → Except String Unit

/-- An outside that does not answer. -/
def Outside.silent : Outside :=
  { post := fun _ => none
    mail := fun _ _ => .failed "Connection error"
    relayAnswers := fun _ => .error "Connection error" }

namespace Outside

/-- Posts a request. One that cannot go out, or gets no answer, is an error. -/
def request (o : Outside) (r : Http.Request) : Except DispatchError Http.Response :=
  match r.outgoing?.bind o.post with
  | some response => .ok response
  | none => .error (.http "error sending request")

end Outside

namespace SmsSettings

/-- The most characters of a text message. -/
def maxChars : Nat := 480

/-- A text of at most `maxChars` characters; a longer one ends in an ellipsis. -/
def shorten (body : String) : String :=
  if body.length ≤ maxChars then body
  else String.ofList (body.toList.take (maxChars - 1) ++ ['…'])

/-- What is posted for a text message. -/
def payload (s : SmsSettings) (phone : String) (d : Delivery) : Json := Json.ofMembers
  [("to", toJson phone), ("message", toJson (shorten d.body)), ("from", toJson s.sender)]

/-- Sends a text message. -/
def deliver (s : SmsSettings) (o : Outside) (d : Delivery) : Except DispatchError Receipt := do
  let phone := Text.trim d.address
  if phone.isEmpty then throw (.rejected "empty phone number")
  let response ← o.request
    (.json s.gatewayUrl [("Authorization", "Bearer " ++ s.apiKey)] (s.payload phone d))
  response.outcome "sms"

end SmsSettings

namespace PushSettings

/-- How urgent a push message is. -/
def urgency : Priority → String
  | .immediate | .high => "high"
  | .normal | .low | .batch => "normal"

/-- What is posted for a push message. -/
def payload (d : Delivery) : Json := Json.ofMembers
  [("to", toJson d.address), ("title", toJson d.subject), ("body", toJson d.body),
    ("priority", toJson (urgency d.priority)),
    ("data", Json.ofMembers
      [("message_id", toJson d.messageId),
        ("alert_id", toJson (Json.walk ["alert".toList, "id".toList] d.context))])]

/-- Sends a push message. -/
def deliver (s : PushSettings) (o : Outside) (d : Delivery) : Except DispatchError Receipt := do
  if Text.isBlankText d.address then throw (.rejected "empty device token")
  let response ← o.request
    (.json s.gatewayUrl [("Authorization", "Bearer " ++ s.apiKey)] (payload d))
  response.outcome "push"

end PushSettings

namespace WebhookSettings

/-- The header that carries the signature of the body. -/
def signatureHeader : String := "X-Vigil-Signature"

/-- The alert that a payload speaks of: that of the context, or the message itself in its shape. -/
def alertOf (d : Delivery) : Json :=
  match d.context.member? "alert" with
  | some (.object members) =>
    let part (name : String) : Json := toJson (Json.Members.find? name members)
    Json.ofMembers
      [("id", part "id"), ("type", part "type"), ("severity", part "severity"),
        ("title", part "title"), ("message", part "message"),
        ("detectedAt", part "detected_at"), ("location", part "location")]
  -- A message that was sent without an alert speaks for itself.
  | _ => Json.ofMembers
    [("id", toJson d.messageId), ("type", .string "notification"), ("severity", .null),
      ("title", toJson d.subject), ("message", toJson d.body), ("detectedAt", .null),
      ("location", .null)]

/-- What is posted to a webhook. -/
def payload (s : WebhookSettings) (d : Delivery) : Json := Json.ofMembers
  [("event", toJson s.event), ("alert", alertOf d)]

/-- The request to a webhook at an address. -/
def requestTo (s : WebhookSettings) (url : String) (d : Delivery) : Http.Request :=
  let body := (s.payload d).render
  let signature := match s.secret with
    | some secret => [(signatureHeader, Digest.sign secret body)]
    | none => []
  ⟨url, ("Content-Type", "application/json") :: s.headers ++ signature, body⟩

/-- Posts to a webhook: at the address of the message, or at that of the settings. -/
def deliver (s : WebhookSettings) (o : Outside) (d : Delivery) : Except DispatchError Receipt := do
  let address := Text.trim d.address
  let url ←
    if address.isEmpty then
      match s.url with
      | some url => .ok url
      | none => .error (.rejected "no webhook URL for message")
    else .ok address
  let response ← o.request (s.requestTo url d)
  response.outcome "webhook"

end WebhookSettings

namespace ChatSettings

/-- The address of a robot, with time and signature behind it where the flavor asks for them. -/
def signedUrl (flavor : ChatFlavor) (secret : Option String) (url : String) (nowMs : Int) :
    String :=
  match flavor, secret with
  | .dingTalk, some secret =>
    let time := toString nowMs
    let signature := Digest.sign secret (time ++ "\n" ++ secret)
    url ++ "&timestamp=" ++ time ++ "&sign=" ++ Text.percentEncode signature
  | _, _ => url

/-- What is posted to a robot. -/
def payload (flavor : ChatFlavor) (d : Delivery) : Json :=
  let title := if d.subject.isEmpty then "Vigil notification" else d.subject
  match flavor with
  | .dingTalk => Json.ofMembers
    [("msgtype", .string "markdown"),
      ("markdown", Json.ofMembers
        [("title", toJson title), ("text", toJson ("### " ++ title ++ "\n\n" ++ d.body))])]
  | .weCom => Json.ofMembers
    [("msgtype", .string "markdown"),
      ("markdown", Json.ofMembers [("content", toJson ("**" ++ title ++ "**\n" ++ d.body))])]
  | .slack => Json.ofMembers [("text", toJson ("*" ++ title ++ "*\n" ++ d.body))]

/-- Whether an answer that says success reports an error in its body: an `errcode` other than zero,
a signed word of 64 bits. -/
def reportsError (body : String) : Bool :=
  match (Json.ofText? body).bind (Json.member? "errcode") with
  | some (.int code) => code != 0 && code < Int.pow 2 63
  | _ => false

/-- Talks to a robot: at the address of the message, or at that of the settings. -/
def deliver (s : ChatSettings) (o : Outside) (nowMs : Int) (d : Delivery) :
    Except DispatchError Receipt := do
  let address := Text.trim d.address
  let base := if address.isEmpty then s.webhookUrl else address
  let response ← o.request
    (.json (signedUrl s.flavor s.secret base nowMs) [] (payload s.flavor d))
  let receipt ← response.outcome s.flavor.name
  -- The other robots answer with success and put the error into the body.
  if s.flavor ≠ .slack && reportsError response.body then
    .error (.api s.flavor.name response.status response.keptBody)
  else .ok receipt

end ChatSettings

namespace MailSettings

/-- Sends mail. -/
def deliver (s : MailSettings) (sender : Mailbox) (o : Outside) (d : Delivery) :
    Except DispatchError Receipt := do
  let mail ← Mail.compose sender d
  (o.mail s mail).outcome

/-- Checks that the relay takes connections. -/
def healthCheck (s : MailSettings) (channelId : String) (o : Outside) :
    Except DispatchError Unit :=
  match o.relayAnswers s with
  | .ok () => .ok ()
  | .error reason =>
    .error (.unavailable ("smtp relay for '" ++ channelId ++ "': " ++ reason))

end MailSettings

namespace Inbox

/-- Whose list an in-app message goes to: its address, or the recipient of the message. -/
def recipientOf (d : Delivery) : String :=
  let address := Text.trim d.address
  if address.isEmpty then d.recipientId else address

/-- Puts a message into an inbox. -/
def deliver (b : Inbox) (d : Delivery) (now : Instant) : Inbox × Except DispatchError Receipt :=
  let recipient := recipientOf d
  if recipient.isEmpty then (b, .error (.rejected "in-app message without recipient"))
  else
    (b.push recipient ⟨d.messageId, d.subject, d.body, d.priority, now, false⟩, .ok .silent)

end Inbox

/-- A way to deliver messages. -/
inductive Transport where
  | mail (settings : MailSettings) (sender : Mailbox)
  | sms (settings : SmsSettings)
  | webhook (settings : WebhookSettings)
  | push (settings : PushSettings)
  | inApp
  | chat (settings : ChatSettings)

namespace Transport

/-- The type of the channels that a transport is for. -/
def channelType : Transport → ChannelType
  | .mail .. => .email
  | .sms _ => .sms
  | .webhook _ => .webhook
  | .push _ => .push
  | .inApp => .inApp
  | .chat _ => .chat

/-- Makes one attempt to deliver a message. -/
def deliver (t : Transport) (o : Outside) (inbox : Inbox) (now : Instant) (d : Delivery) :
    Inbox × Except DispatchError Receipt :=
  match t with
  | .mail settings sender => (inbox, settings.deliver sender o d)
  | .sms settings => (inbox, settings.deliver o d)
  | .webhook settings => (inbox, settings.deliver o d)
  | .push settings => (inbox, settings.deliver o d)
  | .inApp => inbox.deliver d now
  | .chat settings => (inbox, settings.deliver o (now.nanos / Time.millisecond) d)

/-- Checks whether a transport is ready. -/
def healthCheck (t : Transport) (channelId : String) (o : Outside) : Except DispatchError Unit :=
  match t with
  | .mail settings _ => settings.healthCheck channelId o
  | _ => .ok ()

end Transport

end Klaxon
