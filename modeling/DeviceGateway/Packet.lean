import DeviceGateway.Text.Utf8

/-! The packets that a device and the gateway exchange. -/

namespace DeviceGateway

/-- The first six kinds come from devices, the others go to them. -/
inductive Packet
  | connect (secret : String)
  | publish (topic : String) (payload : Bytes)
  | subscribe (topics : List String)
  | unsubscribe (topics : List String)
  | ping
  | disconnect
  | connAck
  | subAck (topics : List String)
  | unsubAck (topics : List String)
  | pong
  | deliver (topic : String) (payload : Bytes)
  | error (code : UInt16) (message : String)
  deriving DecidableEq

namespace Packet

def kind : Packet → String
  | connect _ => "Connect"
  | publish _ _ => "Publish"
  | subscribe _ => "Subscribe"
  | unsubscribe _ => "Unsubscribe"
  | ping => "Ping"
  | disconnect => "Disconnect"
  | connAck => "ConnAck"
  | subAck _ => "SubAck"
  | unsubAck _ => "UnsubAck"
  | pong => "Pong"
  | deliver _ _ => "Deliver"
  | error _ _ => "Error"

def badPacket : UInt16 := 400
def unauthorized : UInt16 := 401
def forbidden : UInt16 := 403
def unavailable : UInt16 := 503

end Packet

end DeviceGateway
