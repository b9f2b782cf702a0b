import DeviceGateway.Packet
import DeviceGateway.Wire.Basic

/-! The JSON form of packets: an object whose `type` names the kind, or an array that starts with
the kind. All of a packet must be sound, its unknown fields included, and it may nest 127 deep. -/

namespace DeviceGateway

open Json (Value)
open Wire (ofJson? toJson)

namespace Packet

def members : Packet → List (String × Value)
  | connect secret => [("secret", toJson secret)]
  | publish topic payload | deliver topic payload =>
    [("topic", toJson topic), ("payload", toJson payload)]
  | subscribe topics | unsubscribe topics | subAck topics | unsubAck topics =>
    [("topics", toJson topics)]
  | ping | disconnect | connAck | pong => []
  | error code message => [("code", toJson code), ("message", toJson message)]

inductive Body
  | named (members : List (String × Value))
  | listed (items : List Value)

def Body.fields? (names : List String) : Body → Option (List (Option Value))
  | .named members => Json.namedFields? names members
  | .listed items => Json.listedFields? names items

/-- A packet without fields. Named fields are passed over, listed ones are too many. -/
def Body.none? (p : Packet) : Body → Option Packet
  | .named _ => some p
  | .listed items => if items.isEmpty then some p else none

def Body.one? {α : Type} [Wire α] (name : String) (make : α → Packet) (b : Body) : Option Packet :=
  match b.fields? [name] with
  | some [some v] => (ofJson? v).map make
  | _ => none

def Body.two? {α β : Type} [Wire α] [Wire β] (first second : String) (make : α → β → Packet)
    (b : Body) : Option Packet :=
  match b.fields? [first, second] with
  | some [some v, some w] => do return make (← ofJson? v) (← ofJson? w)
  | _ => none

def ofBody? (kind : String) (b : Body) : Option Packet :=
  match kind with
  | "Connect" => b.one? "secret" connect
  | "Publish" => b.two? "topic" "payload" publish
  | "Subscribe" => b.one? "topics" subscribe
  | "Unsubscribe" => b.one? "topics" unsubscribe
  | "Ping" => b.none? ping
  | "Disconnect" => b.none? disconnect
  | "ConnAck" => b.none? connAck
  | "SubAck" => b.one? "topics" subAck
  | "UnsubAck" => b.one? "topics" unsubAck
  | "Pong" => b.none? pong
  | "Deliver" => b.two? "topic" "payload" deliver
  | "Error" => b.two? "code" "message" error
  | _ => none

def split? : Value → Option (String × Body)
  | .object raw => do
    let members ← Json.namedMembers? raw
    let some kind ← Json.member? members "type" | none
    return (← kind.text?, .named (members.filter (·.1 != "type")))
  | .array (kind :: items) => kind.text?.map (·, .listed items)
  | _ => none

end Packet

instance : Wire Packet where
  toJson p := Json.record (("type", toJson p.kind) :: p.members)
  ofJson? v :=
    if v.isSound then (Packet.split? v).bind fun (kind, body) => Packet.ofBody? kind body
    else none
  maxDepth := some 127

def Packet.ofFrame? (frame : Bytes) : Option Packet := Wire.decode? frame

def Packet.frame (p : Packet) : Bytes := Wire.encode p

end DeviceGateway
