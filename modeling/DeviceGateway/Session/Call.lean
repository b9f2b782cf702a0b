import DeviceGateway.Activity
import DeviceGateway.Bus.Queue
import DeviceGateway.Error
import DeviceGateway.Packet

/-! What sessions and observations call on: the authenticator, the policy, the bus, the event log,
the broker, and the device's connection. -/

namespace DeviceGateway

structure Settings where
  instanceName : String := ""
  subjectLead : String := "mqtt"

inductive Call
  | identify (secret : String)
  | authorize (client : ClientId) (channel : ChannelId) (action : Action)
  | publish (subject : String) (message : Message)
  | record (event : Event)
  | register (owner : String) (entries : List (String × String)) (queue : QueueId)
  | deregister (owner token : String)
  | deregisterFilter (owner token filter : String)
  | deregisterOwner (owner : String)
  | send (packet : Packet)

abbrev Call.Reply : Call → Type
  | identify _ => Except AccessError ClientId
  | authorize _ _ _ => Except AccessError Unit
  | publish _ _ => Except BusError Unit
  | record _ => Except EventError Unit
  | register _ _ _ => Unit
  | deregister _ _ => Bool
  | deregisterFilter _ _ _ => Bool
  | deregisterOwner _ => Nat
  | send _ => Except LinkError Unit

/-- Work done while `σ` is the state to fall back on. -/
abbrev Work (σ α : Type) := Activity σ Call Call.Reply α

abbrev Attempt (σ α : Type) := Work σ (Except GatewayError α)

/-- Leave to act once on a channel. Whoever holds it can use it. -/
structure Grant where
  channel : Channel
  action : Action
  deriving DecidableEq

def requestGrant {σ : Type} (s : σ) (client : ClientId) (channel : Channel) (action : Action) :
    Attempt σ Grant :=
  .call s (.authorize client channel.id action) fun
    | .ok () => .done (.ok ⟨channel, action⟩)
    | .error e => .done (.error (.authorization (.access e)))

def emit {σ : Type} (s : σ) (event : Event) : Work σ Unit :=
  .call s (.record event) fun _ => .done ()

end DeviceGateway
