import Klaxon.Message.Basic

/-!
# Handing a message to a transport

A delivery is what a transport is given for one attempt, and a receipt is what the provider said
about a message it took.
-/

namespace Klaxon

/-- One rendered message for one address. -/
structure Delivery where
  messageId : String
  recipientId : String
  /-- A mail address, a phone number, a device token or a URL. -/
  address : String
  subject : String
  body : String
  format : TextFormat
  priority : Priority
  /-- What the template saw; messages about an alert carry it under `alert`. -/
  context : Json

namespace Delivery

/-- The delivery of a message with its rendered content. -/
def ofMessage (m : Message) (content : RenderedContent) : Delivery :=
  { messageId := m.id
    recipientId := m.recipient.id
    address := m.recipient.address
    subject := content.subject
    body := content.body
    format := content.format
    priority := m.priority
    context := m.context }

end Delivery

/-- What a provider said about a message that it took. -/
structure Receipt where
  responseCode : Option UInt16
  responseMessage : Option String
  deriving DecidableEq, Inhabited

/-- A receipt that says nothing. -/
def Receipt.silent : Receipt := ⟨none, none⟩

/-- How a transport ended an attempt. -/
structure Report where
  result : Except DispatchError Receipt
  latencyMs : UInt64

end Klaxon
