import Klaxon.Message.Status
import Klaxon.Vocabulary

/-!
# Errors of dispatching

An error names its cause. Its kind decides what happens next: configuration errors are the caller's,
transient ones are worth another attempt, and permanent ones are not.
-/

namespace Klaxon

/-- Why a message could not be made or delivered. -/
inductive DispatchError where
  | invalidConfig (reason : String)
  | unknownChannelType (channelType : String)
  | channelNotFound (id : String)
  | channelDisabled (id : String)
  | templateNotFound (id : String)
  | templateUnsupported (templateId : String) (channelType : ChannelType)
  | recipientNotFound (id : String)
  | messageNotFound (id : String)
  | invalidTransition (messageId : String) (source target : Status)
  /-- An HTTP request got no answer. -/
  | http (reason : String)
  | smtp (reason : String)
  | json (reason : String)
  /-- A service answered that it cannot serve the request now. -/
  | api (service : String) (status : UInt16) (body : String)
  /-- A provider refused the message. -/
  | rejected (reason : String)
  /-- The request budget of the channel is used up. -/
  | rateLimited (channelId : String)
  | unavailable (reason : String)
  | other (reason : String)
  deriving DecidableEq

/-- What an error means for the message. -/
inductive FailureKind where
  | configuration
  | transient
  | permanent
  deriving DecidableEq

namespace DispatchError

/-- The kind of an error. A service that answers 429, or 500 and above, may answer otherwise
later. -/
def kind : DispatchError → FailureKind
  | .invalidConfig _ | .unknownChannelType _ | .channelNotFound _ | .channelDisabled _
  | .templateNotFound _ | .templateUnsupported .. | .recipientNotFound _ | .messageNotFound _
  | .invalidTransition .. | .json _ => .configuration
  | .api _ status _ => if status = 429 ∨ 500 ≤ status then .transient else .permanent
  | .rejected _ => .permanent
  | .http _ | .smtp _ | .rateLimited _ | .unavailable _ | .other _ => .transient

/-- The wording of an error behind the name of the subsystem. -/
def reason : DispatchError → String
  | .invalidConfig reason => "invalid channel configuration: " ++ reason
  | .unknownChannelType channelType => "unknown channel type '" ++ channelType ++ "'"
  | .channelNotFound id => "channel '" ++ id ++ "' not found"
  | .channelDisabled id => "channel '" ++ id ++ "' is disabled"
  | .templateNotFound id => "template '" ++ id ++ "' not found"
  | .templateUnsupported templateId channelType =>
    "template '" ++ templateId ++ "' has no variant for channel type '" ++ channelType.name ++ "'"
  | .recipientNotFound id => "recipient '" ++ id ++ "' not found"
  | .messageNotFound id => "message '" ++ id ++ "' not found"
  | .invalidTransition messageId source target =>
    "message '" ++ messageId ++ "' cannot move from " ++ source.label ++ " to " ++ target.label
  | .http reason => "HTTP request failed: " ++ reason
  | .smtp reason => "SMTP error: " ++ reason
  | .json reason => "JSON error: " ++ reason
  | .api service status body =>
    "API error from " ++ service ++ ": status=" ++ toString status.toNat ++ ", body=" ++ body
  | .rejected reason => "delivery rejected: " ++ reason
  | .rateLimited channelId => "rate limit exceeded on channel '" ++ channelId ++ "'"
  | .unavailable reason => "channel unavailable: " ++ reason
  | .other reason => reason

/-- The wording of an error. -/
def message (e : DispatchError) : String := "Notify: " ++ e.reason

/-- Whether the error is the channel's own refusal to send more for now. -/
def isRateLimit : DispatchError → Bool
  | .rateLimited _ => true
  | _ => false

/-- The HTTP status that came with an error. -/
def status? : DispatchError → Option UInt16
  | .api _ status _ => some status
  | _ => none

end DispatchError

end Klaxon
