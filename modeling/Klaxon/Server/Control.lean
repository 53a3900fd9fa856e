import Klaxon.Server.Pipeline

/-!
# Looking after a server

What is asked of a server beside the handling of events: to cancel and forget messages, to take
channels in and out of use, to change rules and recipients, and to report.
-/

namespace Klaxon

namespace Server

/-- Changes the engine and gives a result. -/
def onEngine {α : Type} (s : Server) (result : Engine × α) : Server × α :=
  ({ s with engine := result.1 }, result.2)

/-- Cancels a message that waits. -/
def cancel (s : Server) (id : String) : Server × Except DispatchError Message :=
  s.onEngine (s.engine.cancel id)

/-- Forgets the messages that were over before a time; gives their number. -/
def prune (s : Server) (before : Instant) : Server × Nat := s.onEngine (s.engine.prune before)

/-- The statistics now. -/
def statistics (s : Server) : Server × Json := s.onEngine (s.engine.report s.now)

/-- Changes the registry and gives a result. -/
def onRegistry {α : Type} (s : Server) (result : Registry × α) : Server × α :=
  ({ s with engine := { s.engine with registry := result.1 } }, result.2)

/-- Takes a channel out of the choice for alerts. -/
def markUnhealthy (s : Server) (channelId : String) : Server × Except DispatchError Unit :=
  s.onRegistry (s.engine.registry.markUnhealthy channelId)

/-- Makes a channel healthy again. -/
def restore (s : Server) (channelId : String) : Server × Except DispatchError Unit :=
  s.onRegistry (s.engine.registry.restore channelId)

/-- Changes the rules and gives a result. -/
def onRules {α : Type} (s : Server) (change : RuleSet → RuleSet × α) : Server × α :=
  let (rules, result) := change s.rules
  ({ s with rules }, result)

/-- Adds a recipient, or replaces the one of its id. -/
def upsertRecipient (s : Server) (recipient : Recipient) : Server :=
  { s with engine := s.engine.setDirectory (s.engine.directory.upsert recipient) }

/-- Removes a recipient; tells whether it was there. -/
def removeRecipient (s : Server) (id : String) : Server × Bool :=
  let (directory, removed) := s.engine.directory.remove id
  ({ s with engine := s.engine.setDirectory directory }, removed.isSome)

/-- Marks a notification in an inbox as read; tells whether it was there. -/
def markRead (s : Server) (recipient messageId : String) : Server × Bool :=
  let (inbox, found) := s.inbox.markRead recipient messageId
  ({ s with inbox }, found)

/-- Takes the record of what the scripts were handed. -/
def takeHandedOver (s : Server) : Server × List (String × Delivery) :=
  ({ s with handedOver := [] }, s.handedOver)

end Server

end Klaxon
