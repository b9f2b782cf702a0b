import DeviceGateway.Rehearsal.World

/-! How the tasks of a rehearsal move. A task that is taken up goes on until it waits, and the tasks
that it wakes come after those that were ready before. -/

namespace DeviceGateway.Rehearsal

/-- How far a piece of work has come. Unless it is done it shows its state. -/
inductive Progress (σ α : Type)
  | done (a : α)
  | held (s : σ) (work : Work σ α) (due : Option Nat)
  | crashed (s : σ)

namespace World

def send (w : World) (device : Option Nat) (p : Packet) : World × Except LinkError Unit :=
  match device with
  | none => (w, .ok ())
  | some i =>
    match w.reception i with
    | .fails => (w, .error (.sendFailed "peer gone"))
    | _ => (w.modifyDevice i fun d => { d with frames := p.frame :: d.frames }, .ok ())

def perform (w : World) (device : Option Nat) : (c : Call) → World × Reaction c.Reply
  | .send p =>
    let (w, reply) := w.send device p
    (w, .reply reply)
  | c =>
    let (house, reaction) := w.house.perform c
    ({ w with house := house }, reaction)

def carry {σ α : Type} (device : Option Nat) : World → Work σ α → World × Progress σ α
  | w, .done a => (w, .done a)
  | w, .call s c k =>
    match w.perform device c with
    | (w, .reply r) => carry device w (k r)
    | (w, .wait due) => (w, .held s (.call s c k) due)
    | (w, .crash) => (w, .crashed s)

def resume {σ α : Type} (device : Option Nat) (w : World) (held : Bool) (work : Work σ α) :
    World × Progress σ α :=
  match held, work with
  | true, .call _ (.record e) k => carry device { w with house := w.house.keep e } (k (.ok ()))
  | _, work => carry device w work

def hold (w : World) (t : Task) (due : Option Nat) : World :=
  match due with
  | some due => w.arm t due
  | none => w.put { t with timer := none }

def finish (w : World) (t : Task) (e : Ending) : World :=
  match t.name with
  | some name => { w.remove t.id with ended := (name, e) :: w.ended }
  | none => w.remove t.id

def disconnectLater (w : World) (s : Session) : World :=
  (w.spawn none (.farewell (s.disconnect w.settings moment) false)).1

def cutServe (w : World) (t : Task) (queue : QueueId) (session : Option Session)
    (writer : Option TaskId) (e : Ending) : World :=
  let w := w.finish t e
  let w := if writer.isNone then w.closeQueue queue else w
  match session with
  | some s => w.disconnectLater s
  | none => w

def endServe (w : World) (t : Task) (device : Nat) (queue : QueueId) (writer : Option TaskId)
    (outcome : Except GatewayError Unit) : World :=
  let w := match writer with
    | some id => w.remove id
    | none => w
  ((w.closeQueue queue).modifyDevice device fun d => { d with closed := true }).finish t
    (.result outcome)

def awaitArrival (w : World) (t : Task) (device : Nat) (queue : QueueId) (stage : Serving)
    (writer : Option TaskId) (timeout : Duration) : World :=
  let take (w : World) (a : Arrival) : World :=
    w.put { t with
      body := .serve device queue (stage.arrive w.settings moments queue a) false writer
      timer := none }
  if w.stopping then take w .stop
  else match (w.devices[device]?).map (·.inbound) with
    | some (a :: rest) => take (w.modifyDevice device fun d => { d with inbound := rest }) a
    | _ => if w.hasRung t then take w .silence else w.arm t (Duration.due w.house.now timeout)

def pollServe (w : World) (t : Task) (device : Nat) (queue : QueueId) (stage : Serving)
    (held : Bool) (writer : Option TaskId) : World :=
  if t.aborted then w.cutServe t queue stage.guarded? writer .cancelled
  else match stage with
    | .opening _ => w.awaitArrival t device queue stage writer w.limits.connectTimeout
    | .reading _ => w.awaitArrival t device queue stage writer w.limits.idleTimeout
    | .working work =>
      match w.resume (some device) held work with
      | (w, .done (s, next)) =>
        match Serving.settle w.settings moment s next with
        | (stage, true) =>
          let (w, id) := w.spawn none (.write device queue false)
          w.put { t with body := .serve device queue stage false (some id), timer := none }
        | (stage, false) =>
          w.put { t with body := .serve device queue stage false writer, timer := none }
      | (w, .held _ work due) =>
        w.hold { t with body := .serve device queue (.working work) true writer } due
      | (w, .crashed s) => w.cutServe t queue (some s) writer .crashed
    | .leaving outcome work =>
      match w.resume (some device) held work with
      | (w, .done _) => w.endServe t device queue writer outcome
      | (w, .held _ work due) =>
        w.hold { t with body := .serve device queue (.leaving outcome work) true writer } due
      | (w, .crashed _) => w.cutServe t queue none writer .crashed

def pollWrite (w : World) (t : Task) (device : Nat) (queue : QueueId) : World :=
  match (w.house.services.queues[queue]?).bind Queue.take with
  | none => if w.hasSender queue then w else (w.closeQueue queue).remove t.id
  | some (n, rest) =>
    let w := w.modifyServices fun s => { s with queues := s.queues.set queue rest }
    match w.reception device with
    | .fails => (w.closeQueue queue).remove t.id
    | .stalls => w.put { t with body := .write device queue true }
    | .takes => (w.send (some device) (.deliver n.topic n.message.payload)).1

def pollFarewell (w : World) (t : Task) (work : Work Session Session) (held : Bool) : World :=
  match w.resume none held work with
  | (w, .held _ work due) => w.hold { t with body := .farewell work true } due
  | (w, _) => w.remove t.id

def pollForward (w : World) (t : Task) (subscription : SubscriptionId) : World :=
  let drop (w : World) : World :=
    w.modifyServices fun s => { s with bus := s.bus.drop subscription }
  let heed (w : World) (i : Forwarder.Input) : World :=
    match Forwarder.State.waiting.step i with
    | .ended r => (drop w).finish t (.result r)
    | _ => w
  if t.aborted then (drop w).finish t .cancelled
  else if w.stopping then heed w .stop
  else match w.house.services.bus.receive subscription with
    | (bus, .delivery d) => w.modifyServices fun s => { s with bus := bus }.forward d
    | (_, .pending) => w
    | (_, .ended) => heed w .busEnded

def abortAll (w : World) (ids : List TaskId) : World :=
  { w with tasks := w.tasks.map fun t => if ids.contains t.id then { t with aborted := true } else t }

def startServe (w : World) (name : Option String) (device : Nat) (protocol : Protocol) :
    World × TaskId :=
  let number := ((w.devices[device]?).map (·.number)).getD 0
  let (w, queue) := w.newQueue (max 1 w.limits.deliveryQueue)
  w.spawn name (.serve device queue (.opening (.start (connectionName number) protocol)) false none)

def pollListen (w : World) (t : Task) (protocol : Protocol) (arrivals : List (Option Nat))
    (children : List TaskId) (stage : Listening) : World :=
  if t.aborted then (w.abortAll children).finish t .cancelled
  else match stage with
    | .accepting =>
      if w.stopping then w.put { t with body := .listen protocol arrivals children .draining }
      else match arrivals with
        | [] => w
        | none :: rest => w.put { t with body := .listen protocol rest children .accepting }
        | some device :: rest =>
          let (w, id) := w.startServe none device protocol
          w.put { t with body := .listen protocol rest (children ++ [id]) .accepting }
    | .draining =>
      if !children.any w.isAlive then w.finish t (.result (.ok ()))
      else if w.hasRung t then
        (w.abortAll children).put
          { t with body := .listen protocol arrivals children .cutting, timer := none }
      else w.arm t (Duration.due w.house.now w.limits.drainTimeout)
    | .cutting => if children.any w.isAlive then w else w.finish t (.result (.ok ()))

def pollWatch (w : World) (t : Task) : World :=
  if t.aborted then w.finish t .cancelled
  else if w.stopping then w.finish t (.result (.ok ()))
  else w

def poll (w : World) (t : Task) : World :=
  match t.body with
  | .serve device queue stage held writer => w.pollServe t device queue stage held writer
  | .write device queue _ => w.pollWrite t device queue
  | .farewell work held => w.pollFarewell t work held
  | .forward subscription => w.pollForward t subscription
  | .listen protocol arrivals children stage => w.pollListen t protocol arrivals children stage
  | .watch => w.pollWatch t

/-- The order in which tasks are woken together: those whose timer rang first, in the order in which
the timers were due, and then the others. -/
def wokenBefore (w : World) (t u : Task) : Bool :=
  match w.hasRung t, w.hasRung u, t.timer, u.timer with
  | true, true, some a, some b => a.due < b.due || (a.due == b.due && a.number ≤ b.number)
  | true, false, _, _ => true
  | false, true, _, _ => false
  | _, _, _, _ => t.id ≤ u.id

def wake (w : World) : World :=
  let woken := w.tasks.filter fun t => !w.ready.contains t.id && w.canMove t
  { w with ready := w.ready ++ (woken.mergeSort (wokenBefore w)).map (·.id) }

def turn (w : World) : World :=
  match w.ready with
  | [] => w
  | id :: rest =>
    let w := { w with ready := rest }
    match w.task? id with
    | none => w
    | some t =>
      let w := w.poll t
      let stays := (w.task? id).any w.canMove
      (if stays then { w with ready := id :: w.ready } else w).wake

def settleFrom : Nat → World → World
  | 0, w => w
  | fuel + 1, w => if w.ready.isEmpty then w else settleFrom fuel w.turn

def load (w : World) : Nat :=
  let sum (ns : List Nat) : Nat := ns.foldl (· + ·) 0
  let size : Arrival → Nat
    | .frame bytes => bytes.length + 1
    | _ => 1
  16 + w.tasks.length + w.house.services.broker.size + w.devices.length +
    sum (w.devices.map fun d => sum (d.inbound.map size)) +
    sum (w.house.services.bus.mailboxes.map (·.waiting.length)) +
    sum (w.house.services.queues.map (·.items.length))

def settle (w : World) : World := settleFrom (w.load * w.load * w.load) w.wake

end World

end DeviceGateway.Rehearsal
