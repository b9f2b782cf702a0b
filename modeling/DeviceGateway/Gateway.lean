import DeviceGateway.Address
import DeviceGateway.Forwarder
import DeviceGateway.Session.Serve
import DeviceGateway.TaskGroup

/-! A gateway as a whole. It listens for devices on two addresses and forwards what the bus carries
to them. It is built before it runs, and what cannot be had then is reported at once. -/

namespace DeviceGateway

structure Gateway where
  mqttAddress : String := "127.0.0.1:1883"
  wsAddress : String := "127.0.0.1:8080"
  settings : Settings := {}
  limits : ServeSettings := {}
  patience : Duration := .ofSecs 30
  grace : Duration := .ofSecs 10
  heedsSignals : Bool := true

namespace Gateway

def bind (label address : String) : Except StartupError Unit :=
  match Address.check address with
  | .ok () => .ok ()
  | .error e => .error (.listener label e)

/-- Binds both listeners and then subscribes the forwarder. The first failure ends it. -/
def build (g : Gateway) (bus : Bus) : Bus × Except StartupError SubscriptionId :=
  match bind "MQTT" g.mqttAddress with
  | .error e => (bus, .error e)
  | .ok () =>
    match bind "WebSocket" g.wsAddress with
    | .error e => (bus, .error e)
    | .ok () => Forwarder.subscribe bus g.settings.subjectLead

def tasks (g : Gateway) : List String :=
  ["mqtt listener", "ws listener", "forwarder"] ++ if g.heedsSignals then ["signals"] else []

def group (g : Gateway) : TaskGroup :=
  { grace := g.grace, running := List.range g.tasks.length }

end Gateway

end DeviceGateway
