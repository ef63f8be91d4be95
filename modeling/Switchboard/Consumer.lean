import Switchboard.Command.Basic
import Switchboard.Endpoint
import Switchboard.Packet

/-!
# Consumers

A consumer introduces itself when its link connects, and subscribes to its commands when the broker
acknowledges. Every other payload goes to the handler; an answer that is not empty goes back in a
packet under the id that the payload came with.
-/

namespace Switchboard

structure Parcel where
  id : UInt32
  payload : Bytes
deriving DecidableEq, Repr

/-- The answer to a request, or `none` when handling it fails. -/
abbrev Handler := Parcel → Option Bytes

/-- A handler that answers with the request behind a fixed beginning, is silent about some requests
and fails on others. -/
def Handler.rehearsed (quiet fail : List Bytes) (beginning : Bytes) : Handler := fun p =>
  if quiet.contains p.payload then some []
  else if fail.contains p.payload then none
  else some (beginning ++ p.payload)

structure Consumer where
  broker : Endpoint
  commands : List String
  registered : Bool
deriving DecidableEq, Repr

namespace Consumer

variable {ω : Type}

def ofCommands (broker : Endpoint) (commands : List String) : Consumer := ⟨broker, commands, false⟩

/-- Subscribe to more commands once the broker acknowledges. -/
def subscribeTo (c : Consumer) (commands : List String) : Consumer :=
  { c with commands := c.commands ++ commands }

def control (carrier : Carrier ω) (c : Consumer) (m : Control) (w : ω) : Except Failure UInt32 × ω :=
  carrier.send w c.broker m.toBytes

/-- Send a subscription for each command, whether or not the ones before were sent. -/
def subscribeAll (carrier : Carrier ω) (c : Consumer) : List String → ω → ω
  | [], w => w
  | command :: rest, w => subscribeAll carrier c rest (c.control carrier (.subscribe command) w).2

def process (carrier : Carrier ω) (handler : Handler) (c : Consumer) (p : Parcel) (w : ω) : ω :=
  match handler p with
  | none => w
  | some answer =>
    if answer.isEmpty then w else (carrier.send w c.broker (Packet.encode ⟨p.id, answer⟩)).2

/-- Act on an event of the link to the broker. The first part of the result is what the handler was
given. -/
def handleEvent (carrier : Carrier ω) (handler : Handler) (c : Consumer) (event : Event) (w : ω) :
    Option Parcel × Consumer × ω :=
  match event with
  | .connected => (none, c, (carrier.send w c.broker hello).2)
  | .disconnected => (none, { c with registered := false }, w)
  | .received id data =>
    if !c.registered && data = helloAck then
      (none, { c with registered := true }, subscribeAll carrier c c.commands w)
    else (some ⟨id, data⟩, c, process carrier handler c ⟨id, data⟩ w)

end Consumer

end Switchboard
