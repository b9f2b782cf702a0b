import DeviceGateway.Access.Identify
import DeviceGateway.Bus.Broker
import DeviceGateway.Forwarder
import DeviceGateway.Session.Call

/-! What all sessions and observations of a gateway share, and how it answers their calls. Each
call is one step. Sends are the connection's own affair and succeed here. -/

namespace DeviceGateway

structure Services where
  settings : Settings := {}
  registrar : Registrar
  policy : Policy
  bus : Bus := {}
  broker : Broker := {}
  queues : Queues := []
  events : List Event := []

namespace Services

def record (s : Services) (e : Event) : Services := { s with events := s.events ++ [e] }

def answer (now : Nat) (s : Services) : (c : Call) → Services × Outcome c.Reply
  | .identify secret =>
    let (registrar, reply) := s.registrar.identify now secret
    ({ s with registrar := registrar }, reply)
  | .authorize client channel action => (s, .answer (s.policy.authorize client channel action))
  | .publish subject message =>
    let (bus, reply) := s.bus.publish subject message
    ({ s with bus := bus }, .answer reply)
  | .record e => (s.record e, .answer (.ok ()))
  | .register owner entries queue =>
    ({ s with broker := s.broker.registerAll owner entries queue }, .answer ())
  | .deregister owner token =>
    let (broker, removed) := s.broker.deregister owner token
    ({ s with broker := broker }, .answer removed)
  | .deregisterFilter owner token filter =>
    let (broker, removed) := s.broker.deregisterFilter owner token filter
    ({ s with broker := broker }, .answer removed)
  | .deregisterOwner owner =>
    let (broker, count) := s.broker.deregisterOwner owner
    ({ s with broker := broker }, .answer count)
  | .send _ => (s, .answer (.ok ()))

def deliver (s : Services) (topic : String) (message : Message) : Services × Nat :=
  let (broker, queues, count) := s.broker.publish topic message s.queues
  ({ s with broker := broker, queues := queues }, count)

def forward (s : Services) (d : Delivery) : Services :=
  let (topic, message) := Forwarder.passed d
  (s.deliver topic message).1

end Services

end DeviceGateway
