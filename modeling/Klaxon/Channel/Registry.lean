import Klaxon.Channel.Basic

/-!
# The registry of channels

A registry holds channels in the order of their ids, each id once. `Registry.select` gives the first
eligible channel of a type in that order.
-/

namespace Klaxon

/-- Channels in the order of their ids. -/
abbrev Registry := List Channel

namespace Registry

/-- The channel of an id. -/
def get? (r : Registry) (id : String) : Option Channel := r.find? fun c => c.id == id

/-- Puts a channel in its place. -/
def place (channel : Channel) : Registry → Registry
  | [] => [channel]
  | c :: rest => if channel.id < c.id then channel :: c :: rest else c :: place channel rest

/-- Adds a channel, unless its id is taken. -/
def register (r : Registry) (channel : Channel) : Registry × Except DispatchError Unit :=
  if (r.get? channel.id).isSome then
    (r, .error (.invalidConfig ("duplicate channel id '" ++ channel.id ++ "'")))
  else (place channel r, .ok ())

/-- Changes the channel of an id. -/
def modify (r : Registry) (id : String) (change : Channel → Channel) : Registry :=
  r.map fun c => if c.id == id then change c else c

/-- The first eligible channel of a type. -/
def select (r : Registry) (channelType : ChannelType) (priority : Priority) : Option Channel :=
  r.find? fun c => c.channelType == channelType && c.isEligible priority

/-- Changes the channel of an id, or reports that there is none. -/
def modifyExisting (r : Registry) (id : String) (change : Channel → Channel) :
    Registry × Except DispatchError Unit :=
  if (r.get? id).isSome then (r.modify id change, .ok ()) else (r, .error (.channelNotFound id))

/-- Takes a channel out of the choice for alerts. -/
def markUnhealthy (r : Registry) (id : String) : Registry × Except DispatchError Unit :=
  r.modifyExisting id Channel.markUnhealthy

/-- Makes a channel healthy again. -/
def restore (r : Registry) (id : String) : Registry × Except DispatchError Unit :=
  r.modifyExisting id Channel.restore

/-- The states of all channels. -/
def snapshot (r : Registry) : Json := .array (r.map Channel.snapshot)

end Registry

end Klaxon
