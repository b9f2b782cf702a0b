import DeviceGateway.Message
import DeviceGateway.Wire.Basic

/-! The JSON forms of names, channels, messages and events. -/

namespace DeviceGateway

open Json (Value)
open Wire (ofJson? toJson)

def namedCase? {α : Type} (name : α → String) (cases : List α) (v : Value) : Option α :=
  v.caseName?.bind fun s => cases.find? (name · == s)

instance : Wire ClientId where
  toJson id := toJson id.text
  ofJson? v := (ofJson? v).map ClientId.mk

instance : Wire ChannelId where
  toJson id := toJson id.text
  ofJson? v := (ofJson? v).bind ChannelId.ofString?

instance : Wire Protocol where
  toJson p := toJson p.name
  ofJson? := namedCase? Protocol.name [.mqtt, .ws, .coap]

instance : Wire Operation where
  toJson o := toJson o.name
  ofJson? := namedCase? Operation.name [.connect, .disconnect, .subscribe, .unsubscribe]

instance : Wire Channel where
  toJson c := Json.record [("id", toJson c.id), ("subtopic", toJson c.subtopic)]
  ofJson? v :=
    match v.fields? ["id", "subtopic"] with
    | some [some id, subtopic] => do
      return ⟨← ofJson? id, ← Json.orElse? "" ofJson? subtopic⟩
    | _ => none

instance : Wire Message where
  toJson m := Json.record [("channel", toJson m.channel), ("subtopic", toJson m.subtopic),
    ("publisher", toJson m.publisher), ("protocol", toJson m.protocol),
    ("payload", toJson m.payload), ("created", toJson m.created)]
  ofJson? v :=
    match v.fields? ["channel", "subtopic", "publisher", "protocol", "payload", "created"] with
    | some [some channel, subtopic, some publisher, some protocol, some payload, some created] => do
      return ⟨← ofJson? channel, ← Json.orElse? "" ofJson? subtopic, ← ofJson? publisher,
        ← ofJson? protocol, ← ofJson? payload, ← ofJson? created⟩
    | _ => none

def Json.optionalMember {α : Type} [Wire α] (name : String) : Option α → List (String × Value)
  | none => []
  | some a => [(name, toJson a)]

instance : Wire Event where
  toJson e := Json.record ([("operation", toJson e.operation), ("client_id", toJson e.client)] ++
    Json.optionalMember "channel" e.channel ++ Json.optionalMember "subtopic" e.subtopic ++
    [("protocol", toJson e.protocol), ("instance", toJson e.instanceName),
      ("timestamp", toJson e.timestamp)])
  ofJson? v :=
    match v.fields? ["operation", "client_id", "channel", "subtopic", "protocol", "instance",
      "timestamp"] with
    | some [some operation, some client, channel, subtopic, some protocol, some instanceName,
        some timestamp] => do
      return ⟨← ofJson? operation, ← ofJson? client, ← Json.optional? ofJson? channel,
        ← Json.optional? ofJson? subtopic, ← ofJson? protocol, ← ofJson? instanceName,
        ← ofJson? timestamp⟩
    | _ => none

end DeviceGateway
