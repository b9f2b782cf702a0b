import DeviceGateway.Session.Call

/-! A device's session. It is fresh, then connecting once a secret was accepted, connected, and
disconnected; one whose secret was refused is rejected. Asking for leave and acting on it are
separate, and both are refused unless the session is connected. -/

namespace DeviceGateway

inductive Phase
  | fresh
  | connecting
  | connected
  | disconnected
  | rejected
  deriving DecidableEq, Repr

structure Session where
  owner : String
  protocol : Protocol
  phase : Phase := .fresh
  client : Option ClientId := none
  secret : String := ""
  connectedAt : Option Moment := none
  deriving DecidableEq

def connectionName (id : UInt64) : String := "conn-" ++ toString id.toNat

namespace Session

def start (name : String) (protocol : Protocol) : Session :=
  { owner := "session:" ++ name, protocol := protocol }

def connected? (s : Session) : Option ClientId :=
  if s.phase = .connected then s.client else none

def authConnect (s : Session) (secret : String) :
    Work Session (Session × Except GatewayError Unit) :=
  if s.phase ≠ .fresh then .done (s, .error .notConnected)
  else
    let s := { s with secret := secret }
    if secret = "" then
      .done ({ s with phase := .rejected }, .error (.authentication .missingCredential))
    else .call s (.identify secret) fun
      | .ok client => .done ({ s with phase := .connecting, client := some client }, .ok ())
      | .error e => .done ({ s with phase := .rejected }, .error (.authentication e))

def connect (st : Settings) (m : Moment) (s : Session) :
    Work Session (Session × Except GatewayError Unit) :=
  match s.phase, s.client with
  | .connecting, some client =>
    let s := { s with phase := .connected, connectedAt := some m }
    (emit s (.ofSession .connect client s.protocol st.instanceName m)).bind fun _ =>
      .done (s, .ok ())
  | _, _ => .done (s, .error .notConnected)

def whenConnected {α : Type} (s : Session) (f : ClientId → Attempt Session α) : Attempt Session α :=
  match s.connected? with
  | some client => f client
  | none => .done (.error .notConnected)

def authPublish (s : Session) (topic : String) : Attempt Session Grant :=
  s.whenConnected fun client =>
    match Topic.parse topic with
    | .error e => .done (.error (.authorization (.topic e)))
    | .ok channel => requestGrant s client channel .publish

def misused (client : ClientId) (g : Grant) (action : Action) : GatewayError :=
  .authorization (.access (.denied client g.channel.id action))

def misuse? (action : Action) (grants : List Grant) : Option Grant :=
  grants.find? (·.action != action)

def publish (st : Settings) (m : Moment) (s : Session) (g : Grant) (payload : Bytes) :
    Attempt Session Unit :=
  s.whenConnected fun client =>
    if g.action ≠ .publish then .done (.error (misused client g .publish))
    else .call s (.publish (Topic.subject st.subjectLead g.channel)
        (.to g.channel client s.protocol payload m)) fun
      | .ok () => .done (.ok ())
      | .error e => .done (.error (.forwarding e))

def requestFilters (s : Session) (client : ClientId) (action : Action) :
    List String → Attempt Session (List Grant)
  | [] => .done (.ok [])
  | topic :: rest =>
    match Topic.parseFilter topic with
    | .error e => .done (.error (.authorization (.topic e)))
    | .ok channel =>
      (requestGrant s client channel action).andThen fun g =>
        (requestFilters s client action rest).andThen fun gs => .done (.ok (g :: gs))

def authSubscribe (s : Session) (topics : List String) : Attempt Session (List Grant) :=
  s.whenConnected fun client => requestFilters s client .subscribe topics

def authUnsubscribe (s : Session) (topics : List String) : Attempt Session (List Grant) :=
  s.whenConnected fun client => requestFilters s client .unsubscribe topics

def event (st : Settings) (m : Moment) (s : Session) (client : ClientId) (operation : Operation)
    (g : Grant) : Event :=
  .onChannel operation client g.channel s.protocol st.instanceName m

def emitEach (s : Session) : List Event → Work Session Unit
  | [] => .done ()
  | e :: rest => (emit s e).bind fun _ => emitEach s rest

/-- Registers the filters of all grants at once, each as its own token, and then records each. -/
def subscribe (st : Settings) (m : Moments) (s : Session) (grants : List Grant) (queue : QueueId) :
    Attempt Session (List String) :=
  s.whenConnected fun client =>
    match misuse? .subscribe grants with
    | some g => .done (.error (misused client g .subscribe))
    | none =>
      let filters := grants.map fun g => Topic.edgeFilter g.channel
      .call s (.register s.owner (filters.map fun f => (f, f)) queue) fun _ =>
        (emitEach s (grants.mapIdx fun i => event st (m i) s client .subscribe)).bind fun _ =>
          .done (.ok filters)

def deregisterEach (st : Settings) (m : Moments) (s : Session) (client : ClientId) :
    List Grant → Work Session Unit
  | [] => .done ()
  | g :: rest =>
    .call s (.deregister s.owner (Topic.edgeFilter g.channel)) fun removed =>
      if removed then
        (emit s (event st (m 0) s client .unsubscribe g)).bind fun _ =>
          deregisterEach st (fun i => m (i + 1)) s client rest
      else deregisterEach st m s client rest

def unsubscribe (st : Settings) (m : Moments) (s : Session) (grants : List Grant) :
    Attempt Session (List String) :=
  s.whenConnected fun client =>
    match misuse? .unsubscribe grants with
    | some g => .done (.error (misused client g .unsubscribe))
    | none =>
      (deregisterEach st m s client grants).bind fun _ =>
        .done (.ok (grants.map fun g => Topic.edgeFilter g.channel))

/-- Ends a session. Only one that was connected has registrations to drop and an end to record. -/
def disconnect (st : Settings) (m : Moment) (s : Session) : Work Session Session :=
  match s.phase with
  | .disconnected | .rejected => .done s
  | .fresh | .connecting => .done { s with phase := .disconnected }
  | .connected =>
    let s := { s with phase := .disconnected }
    .call s (.deregisterOwner s.owner) fun _ =>
      match s.client with
      | none => .done s
      | some client =>
        (emit s (.ofSession .disconnect client s.protocol st.instanceName m)).bind fun _ => .done s

end Session

end DeviceGateway
