import DeviceGateway.Channel
import DeviceGateway.Text.Utf8

/-! What travels on the bus, and the record of what sessions do. -/

namespace DeviceGateway

structure Moment where
  nanos : UInt64
  millis : UInt64
  deriving DecidableEq

/-- The moments at which the events of one request are made, one after another. -/
abbrev Moments := Nat → Moment

structure Message where
  channel : ChannelId
  subtopic : String
  publisher : ClientId
  protocol : Protocol
  payload : Bytes
  created : UInt64
  deriving DecidableEq

def Message.to (c : Channel) (publisher : ClientId) (protocol : Protocol) (payload : Bytes)
    (m : Moment) : Message :=
  ⟨c.id, c.subtopic, publisher, protocol, payload, m.nanos⟩

inductive Operation
  | connect
  | disconnect
  | subscribe
  | unsubscribe
  deriving DecidableEq, Repr

def Operation.name : Operation → String
  | .connect => "connect"
  | .disconnect => "disconnect"
  | .subscribe => "subscribe"
  | .unsubscribe => "unsubscribe"

structure Event where
  operation : Operation
  client : ClientId
  channel : Option ChannelId
  subtopic : Option String
  protocol : Protocol
  instanceName : String
  timestamp : UInt64
  deriving DecidableEq

def Event.ofSession (operation : Operation) (client : ClientId) (protocol : Protocol)
    (instanceName : String) (m : Moment) : Event :=
  ⟨operation, client, none, none, protocol, instanceName, m.millis⟩

def Event.onChannel (operation : Operation) (client : ClientId) (c : Channel) (protocol : Protocol)
    (instanceName : String) (m : Moment) : Event :=
  ⟨operation, client, some c.id, if c.subtopic = "" then none else some c.subtopic, protocol,
    instanceName, m.millis⟩

end DeviceGateway
