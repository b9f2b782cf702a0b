import DeviceGateway.Observe
import DeviceGateway.Rehearsal.Poll

/-! A rehearsal with names for what is in it, and what can be done in it from outside. Work done
from outside is done at once or not at all: what would have to wait is dropped where it stands. -/

namespace DeviceGateway.Rehearsal

abbrev Named (α : Type) := List (String × α)

namespace Named

variable {α : Type}

def get? (t : Named α) (name : String) : Option α := (t.find? (·.1 == name)).map (·.2)

def put (t : Named α) (name : String) (a : α) : Named α := (name, a) :: t.filter (·.1 != name)

def drop (t : Named α) (name : String) : Named α := t.filter (·.1 != name)

end Named

inductive Direct (α : Type)
  | done (a : α)
  | pending
  | crashed

structure Scene where
  world : World
  subscriptions : Named SubscriptionId := []
  queues : Named QueueId := []
  sessions : Named Session := []
  grants : Named (List Grant) := []

namespace Scene

def modifyHouse (sc : Scene) (f : House → House) : Scene :=
  { sc with world := { sc.world with house := f sc.world.house } }

def modifyServices (sc : Scene) (f : Services → Services) : Scene :=
  { sc with world := sc.world.modifyServices f }

def services (sc : Scene) : Services := sc.world.house.services

def advance (sc : Scene) (ticks : Nat) : Scene :=
  sc.modifyHouse fun h => { h with now := h.now + ticks }

def subscribeBus (sc : Scene) (name pattern : String) : Scene × Except BusError String :=
  match sc.services.bus.subscribe pattern with
  | (bus, .error e) => (sc.modifyServices fun s => { s with bus := bus }, .error e)
  | (bus, .ok id) =>
    let bus := match sc.subscriptions.get? name with
      | some old => bus.drop old
      | none => bus
    ({ sc.modifyServices fun s => { s with bus := bus } with
        subscriptions := sc.subscriptions.put name id }, .ok pattern)

def receive (sc : Scene) (id : SubscriptionId) : Scene × Received :=
  let (bus, r) := sc.services.bus.receive id
  (sc.modifyServices fun s => { s with bus := bus }, r)

def receiveAll (sc : Scene) (id : SubscriptionId) : Scene × List Delivery :=
  let bus := sc.services.bus
  (sc.modifyServices fun s => { s with bus := bus.modify id fun box => { box with waiting := [] } },
    ((bus.mailboxes[id]?).map (·.waiting)).getD [])

def dropSubscription (sc : Scene) (name : String) : Scene × Bool :=
  match sc.subscriptions.get? name with
  | none => (sc, false)
  | some id =>
    ({ sc.modifyServices fun s => { s with bus := s.bus.drop id } with
        subscriptions := sc.subscriptions.drop name }, true)

/-- Publishes straight to the bus, past all faults. -/
def publishBus (sc : Scene) (subject : String) (m : Message) : Scene × Except BusError Unit :=
  let (bus, r) := sc.services.bus.publish subject m
  (sc.modifyServices fun s => { s with bus := bus }, r)

def newQueue (sc : Scene) (name : String) (capacity : Nat) : Scene :=
  let world := match sc.queues.get? name with
    | some old => sc.world.closeQueue old
    | none => sc.world
  let (world, id) := world.newQueue capacity
  { sc with world := world, queues := sc.queues.put name id }

def drainQueue (sc : Scene) (id : QueueId) : Scene × List Notification :=
  match sc.services.queues[id]? with
  | none => (sc, [])
  | some q =>
    let (ns, q) := q.drain
    (sc.modifyServices fun s => { s with queues := s.queues.set id q }, ns)

def closeQueue (sc : Scene) (id : QueueId) : Scene × Bool :=
  ({ sc with world := sc.world.closeQueue id }, (sc.services.queues[id]?).any (·.isOpen))

def register (sc : Scene) (owner : String) (entries : List (String × String)) (queue : QueueId) :
    Scene :=
  sc.modifyServices fun s => { s with broker := s.broker.registerAll owner entries queue }

def broker {α : Type} (sc : Scene) (f : Broker → Broker × α) : Scene × α :=
  let (b, a) := f sc.services.broker
  (sc.modifyServices fun s => { s with broker := b }, a)

def deliver (sc : Scene) (topic : String) (m : Message) : Scene × Nat :=
  let (s, n) := sc.services.deliver topic m
  (sc.modifyServices fun _ => s, n)

def identify (sc : Scene) (secret : String) : Scene × Outcome (Except AccessError ClientId) :=
  let (h, r) := sc.world.house.identify secret
  (sc.modifyHouse fun _ => h, r)

def remembered (sc : Scene) (key : String) : Scene × Outcome (Except CacheError (Option String)) :=
  let (h, r) := sc.world.house.errand (.lookUp key)
  (sc.modifyHouse fun _ => h, r)

def remember (sc : Scene) (key value : String) (ttl : Duration) :
    Scene × Outcome (Except CacheError Unit) :=
  let (h, r) := sc.world.house.remember key value ttl
  (sc.modifyHouse fun _ => h, r)

def direct {α : Type} (sc : Scene) (work : Work Unit α) : Scene × Direct α :=
  match sc.world.carry none work with
  | (w, .done a) => ({ sc with world := w }, .done a)
  | (w, .held _ _ _) => ({ sc with world := w }, .pending)
  | (w, .crashed _) => ({ sc with world := w }, .crashed)

def counted {α : Type} (count : House → House) : Scene × Direct α → Scene × Direct α
  | (sc, .done a) => (sc.modifyHouse count, .done a)
  | r => r

def observe (sc : Scene) (key channel subtopic token : String) (queue : QueueId) :
    Scene × Direct (Except GatewayError Unit) :=
  sc.direct (Observe.subscribe sc.world.settings World.moment key channel subtopic token queue)

def unobserve (sc : Scene) (key channel subtopic token : String) :
    Scene × Direct (Except GatewayError Unit) :=
  sc.direct (Observe.unsubscribe sc.world.settings World.moment key channel subtopic token)

def observeCounted (sc : Scene) (key channel subtopic token : String) (queue : QueueId) :
    Scene × Direct (Except GatewayError Unit) :=
  counted (fun h => { h with subscribed := h.subscribed + 1 })
    (sc.observe key channel subtopic token queue)

def unobserveCounted (sc : Scene) (key channel subtopic token : String) :
    Scene × Direct (Except GatewayError Unit) :=
  counted (fun h => { h with unsubscribed := h.unsubscribed + 1 })
    (sc.unobserve key channel subtopic token)

def record (sc : Scene) (e : Event) : Scene × Direct (Except EventError Unit) :=
  sc.direct (.call () (.record e) .done)

def newSession (sc : Scene) (name number : String) (protocol : Protocol) : Scene :=
  { sc with sessions := sc.sessions.put name (.start number protocol) }

def act {α : Type} (sc : Scene) (name : String) (work : Work Session (Session × α)) :
    Scene × Direct α :=
  let put (w : World) (s : Session) : Scene :=
    { sc with world := w, sessions := sc.sessions.put name s }
  match sc.world.carry none work with
  | (w, .done (s, a)) => (put w s, .done a)
  | (w, .held s _ _) => (put w s, .pending)
  | (w, .crashed s) => (put w s, .crashed)

def attempt {α : Type} (sc : Scene) (name : String) (s : Session) (work : Attempt Session α) :
    Scene × Direct (Except GatewayError α) :=
  sc.act name (work.bind fun r => .done (s, r))

def keepGrants (name : String) :
    Scene × Direct (Except GatewayError (List Grant)) → Scene × Direct (Except GatewayError (List Grant))
  | (sc, .done (.ok gs)) => ({ sc with grants := sc.grants.put name gs }, .done (.ok gs))
  | (sc, r) => ({ sc with grants := sc.grants.put name [] }, r)

def grantsOf (sc : Scene) (names : List String) : List Grant :=
  names.flatMap fun name => (sc.grants.get? name).getD []

def authPublish (sc : Scene) (name : String) (s : Session) (topic grant : String) :
    Scene × Direct (Except GatewayError (List Grant)) :=
  keepGrants grant
    (sc.attempt name s ((s.authPublish topic).andThen fun g => .done (.ok [g])))

def authSubscribe (sc : Scene) (name : String) (s : Session) (topics : List String)
    (grant : String) : Scene × Direct (Except GatewayError (List Grant)) :=
  keepGrants grant (sc.attempt name s (s.authSubscribe topics))

def authUnsubscribe (sc : Scene) (name : String) (s : Session) (topics : List String)
    (grant : String) : Scene × Direct (Except GatewayError (List Grant)) :=
  keepGrants grant (sc.attempt name s (s.authUnsubscribe topics))

def publish (sc : Scene) (name : String) (s : Session) (grants : List String) (payload : Bytes) :
    Option (Scene × Direct (Except GatewayError Unit)) :=
  (sc.grantsOf grants).head?.map fun g =>
    sc.attempt name s (s.publish sc.world.settings World.moment g payload)

def subscribe (sc : Scene) (name : String) (s : Session) (grants : List String) (queue : QueueId) :
    Scene × Direct (Except GatewayError (List String)) :=
  sc.attempt name s (s.subscribe sc.world.settings World.moments (sc.grantsOf grants) queue)

def unsubscribe (sc : Scene) (name : String) (s : Session) (grants : List String) :
    Scene × Direct (Except GatewayError (List String)) :=
  sc.attempt name s (s.unsubscribe sc.world.settings World.moments (sc.grantsOf grants))

def device? (sc : Scene) (name : String) : Option Nat :=
  (sc.world.devices.zipIdx.reverse.find? (·.1.name == name)).map (·.2)

def addDevice (sc : Scene) (name : String) (number : UInt64) : Scene × Nat :=
  ({ sc with world := { sc.world with
      devices := sc.world.devices ++ [{ name := name, number := number }] } }, sc.world.devices.length)

def connectDevice (sc : Scene) (name : String) (number : UInt64) (protocol : Protocol) : Scene :=
  let (sc, device) := sc.addDevice name number
  { sc with world := (sc.world.startServe (some ("conn:" ++ name)) device protocol).1 }

def arrive (sc : Scene) (device : Nat) (a : Arrival) : Scene × Bool :=
  if sc.world.isHeard device then
    ({ sc with world := sc.world.modifyDevice device fun d => { d with inbound := d.inbound ++ [a] } },
      true)
  else (sc, false)

def setReception (sc : Scene) (device : Nat) (r : Reception) : Scene :=
  { sc with world := sc.world.modifyDevice device fun d => { d with reception := r } }

def abort (sc : Scene) (name : String) : Scene :=
  let ids := (sc.world.tasks.filter (·.name == some name)).map (·.id)
  { sc with world := sc.world.abortAll ids }

def listenerName (name : String) : String := "listener:" ++ name

def listen (sc : Scene) (name : String) (protocol : Protocol) : Scene :=
  { sc with world := (sc.world.spawn (some (listenerName name)) (.listen protocol [] [] .accepting)).1 }

def arriveAt (sc : Scene) (name : String) (arrival : Option Nat) : Scene × Bool :=
  match sc.world.tasks.find? (·.name == some (listenerName name)) with
  | some t =>
    match t.body with
    | .listen protocol arrivals children stage =>
      let t := { t with body := .listen protocol (arrivals ++ [arrival]) children stage }
      ({ sc with world := sc.world.put t }, true)
    | _ => (sc, false)
  | none => (sc, false)

def forward (sc : Scene) : Scene × Except StartupError Unit :=
  match Forwarder.subscribe sc.services.bus sc.services.settings.subjectLead with
  | (bus, .error e) => (sc.modifyServices fun s => { s with bus := bus }, .error e)
  | (bus, .ok id) =>
    let w := (sc.modifyServices fun s => { s with bus := bus }).world
    ({ sc with world := (w.spawn (some "forwarder") (.forward id)).1 }, .ok ())

def stop (sc : Scene) : Scene × Bool :=
  if sc.world.hasController then ({ sc with world := { sc.world with stopping := true } }, true)
  else (sc, false)

def dropController (sc : Scene) : Scene × Bool :=
  if sc.world.hasController then
    ({ sc with world := { sc.world with stopping := true, hasController := false } }, true)
  else (sc, false)

def settle (sc : Scene) : Scene := { sc with world := sc.world.settle }

end Scene

end DeviceGateway.Rehearsal
