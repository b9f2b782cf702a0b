import DeviceGateway.Error

/-! The forwarder takes every delivery of its subscription, in order, and publishes it on towards
the devices: one call for each delivery, and none begins before the one before it has been answered
or has taken too long. What the answer is does not matter. -/

namespace DeviceGateway.Forwarder

def subscribe (bus : Bus) (lead : String) : Bus × Except StartupError SubscriptionId :=
  let pattern := Topic.allChannels lead
  match bus.subscribe pattern with
  | (bus, .ok id) => (bus, .ok id)
  | (bus, .error e) => (bus, .error (.subscription pattern e))

inductive State
  | waiting
  | forwarding (d : Delivery)
  | ended (result : Except GatewayError Unit)

inductive Input
  | stop
  | delivery (d : Delivery)
  | busEnded
  | answered
  | timedOut

def passed (d : Delivery) : String × Message :=
  (Topic.edgeTopic d.message.channel d.message.subtopic, d.message)

/-- A stop is heeded between deliveries only. -/
def State.step : State → Input → State
  | .waiting, .stop => .ended (.ok ())
  | .waiting, .delivery d => .forwarding d
  | .waiting, .busEnded => .ended (.error (.stopped .busClosed))
  | .forwarding _, .answered => .waiting
  | .forwarding _, .timedOut => .waiting
  | s, _ => s

end DeviceGateway.Forwarder
