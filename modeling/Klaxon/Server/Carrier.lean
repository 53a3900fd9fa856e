import Klaxon.Transport.Plugin

/-!
# Carriers

A carrier makes the deliveries of one channel. Most are transports; a script stands in for one when
a server is rehearsed, and answers with prepared replies one after the other.
-/

namespace Klaxon

/-- How a carrier answers to one delivery. -/
structure Reply where
  /-- How long the answer takes to come. -/
  delayMs : Nat
  /-- The latency that the attempt reports. -/
  latencyMs : UInt64
  result : Except DispatchError Receipt

/-- A reply that comes at once. -/
def Reply.prompt (result : Except DispatchError Receipt) : Reply := ⟨0, 0, result⟩

/-- The report of an attempt that a reply ends. -/
def Reply.report (r : Reply) : Report := ⟨r.result, r.latencyMs⟩

/-- Prepared replies. -/
structure Script where
  replies : List Reply
  /-- The reply when the others are used up. -/
  fallback : Reply
  /-- The error of the health check, if it fails. -/
  health : Option DispatchError

namespace Script

/-- The reply where none is prepared. -/
def usualReply : Reply := .prompt (.ok ⟨some 200, some "ok"⟩)

/-- A script without replies of its own. -/
def standard : Script := ⟨[], usualReply, none⟩

/-- The next reply, and the script behind it. -/
def next (s : Script) : Script × Reply :=
  match s.replies with
  | [] => (s, s.fallback)
  | r :: rest => ({ s with replies := rest }, r)

end Script

/-- What makes the deliveries of a channel. -/
inductive Carrier where
  | transport (transport : Transport)
  | script (script : Script)

namespace Carrier

/-- Makes one delivery. -/
def deliver (c : Carrier) (outside : Outside) (inbox : Inbox) (now : Instant) (d : Delivery) :
    Carrier × Inbox × Reply :=
  match c with
  | .transport t =>
    let (inbox, result) := t.deliver outside inbox now d
    (c, inbox, .prompt result)
  | .script s =>
    let (s, reply) := s.next
    (.script s, inbox, reply)

/-- Whether a carrier keeps a record of what it is handed. -/
def isScript : Carrier → Bool
  | .transport _ => false
  | .script _ => true

/-- Checks whether a carrier is ready. -/
def healthCheck (c : Carrier) (channelId : String) (outside : Outside) :
    Except DispatchError Unit :=
  match c with
  | .transport t => t.healthCheck channelId outside
  | .script s =>
    match s.health with
    | some e => .error e
    | none => .ok ()

/-- A plugin whose transports are carriers. -/
def plugin (p : Plugin Transport) : Plugin Carrier :=
  { channelType := p.channelType
    recipientType := p.recipientType
    validate := p.validate
    create := fun id config =>
      (p.create id config).map fun (handles, made) => (handles, .transport made) }

/-- A plugin that takes all settings and makes scripts. -/
def scriptPlugin (channelType : ChannelType) : Plugin Carrier :=
  { channelType
    recipientType := "test"
    validate := fun _ => .ok ()
    create := fun _ _ => .ok (channelType, .script .standard) }

/-- The plugins that are always there. -/
def plugins : Plugins Carrier := Plugins.builtin.map plugin

/-- The plugins for a rehearsal: only in-app messages go where they always go. -/
def rehearsalPlugins : Plugins Carrier :=
  [ChannelType.email, .sms, .webhook, .push, .chat].foldl
    (fun ps t => ps.register (scriptPlugin t)) plugins

end Carrier

end Klaxon
