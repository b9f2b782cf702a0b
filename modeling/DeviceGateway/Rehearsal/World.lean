import DeviceGateway.Rehearsal.House
import DeviceGateway.Session.Serve

/-! A gateway in rehearsal: its devices, its tasks, and what each task waits for. -/

namespace DeviceGateway.Rehearsal

inductive Reception
  | takes
  | fails
  | stalls

structure Device where
  name : String
  number : UInt64
  inbound : List Arrival := []
  reception : Reception := .takes
  frames : List Bytes := []
  closed : Bool := false

abbrev TaskId := Nat

inductive Listening
  | accepting
  | draining
  | cutting

/-- The state of a task. `held` says that the call under way was begun and waits to be answered. -/
inductive Body
  | serve (device : Nat) (queue : QueueId) (stage : Serving) (held : Bool) (writer : Option TaskId)
  | write (device : Nat) (queue : QueueId) (stalled : Bool)
  | farewell (work : Work Session Session) (held : Bool)
  | forward (subscription : SubscriptionId)
  | listen (protocol : Protocol) (arrivals : List (Option Nat)) (children : List TaskId)
      (stage : Listening)
  | watch

structure Timer where
  due : Nat
  number : Nat

structure Task where
  id : TaskId
  name : Option String
  body : Body
  timer : Option Timer := none
  aborted : Bool := false

inductive Ending
  | result (r : Except GatewayError Unit)
  | cancelled
  | crashed

structure World where
  house : House
  limits : ServeSettings := {}
  devices : List Device := []
  tasks : List Task := []
  ready : List TaskId := []
  nextTask : TaskId := 0
  nextTimer : Nat := 0
  stopping : Bool := false
  hasController : Bool := true
  ended : List (String × Ending) := []
  reported : Nat := 0

namespace World

def moment : Moment := ⟨0, 0⟩

def moments : Moments := fun _ => moment

def settings (w : World) : Settings := w.house.services.settings

def task? (w : World) (id : TaskId) : Option Task := w.tasks.find? (·.id == id)

def isAlive (w : World) (id : TaskId) : Bool := w.tasks.any (·.id == id)

def put (w : World) (t : Task) : World :=
  { w with tasks := w.tasks.map fun u => if u.id = t.id then t else u }

def remove (w : World) (id : TaskId) : World :=
  { w with tasks := w.tasks.filter (·.id != id), ready := w.ready.filter (· != id) }

def spawn (w : World) (name : Option String) (body : Body) : World × TaskId :=
  ({ w with
      tasks := w.tasks ++ [{ id := w.nextTask, name := name, body := body }]
      ready := w.ready ++ [w.nextTask]
      nextTask := w.nextTask + 1 }, w.nextTask)

def modifyDevice (w : World) (i : Nat) (f : Device → Device) : World :=
  { w with devices := w.devices.modify i f }

def reception (w : World) (i : Nat) : Reception := ((w.devices[i]?).map (·.reception)).getD .takes

def modifyServices (w : World) (f : Services → Services) : World :=
  { w with house := { w.house with services := f w.house.services } }

def closeQueue (w : World) (q : QueueId) : World :=
  w.modifyServices fun s => { s with queues := s.queues.modify q Queue.close }

def newQueue (w : World) (capacity : Nat) : World × QueueId :=
  let (queues, q) := w.house.services.queues.add capacity
  (w.modifyServices fun s => { s with queues := queues }, q)

def arm (w : World) (t : Task) (due : Nat) : World :=
  { w.put { t with timer := some ⟨due, w.nextTimer⟩ } with nextTimer := w.nextTimer + 1 }

def hasRung (w : World) (t : Task) : Bool := t.timer.any (·.due ≤ w.house.now)

/-- Whether something can still be put into a session's queue: its session goes on, or it is
registered. -/
def hasSender (w : World) (q : QueueId) : Bool :=
  w.house.services.broker.registrations.any (·.queue == q) ||
    w.tasks.any fun t =>
      match t.body with
      | .serve _ queue stage _ _ => queue == q && (stage matches .opening _ | .reading _ | .working _)
      | _ => false

def isHeard (w : World) (device : Nat) : Bool :=
  w.tasks.any fun t =>
    match t.body with
    | .serve d _ _ _ _ => d == device
    | .write d _ _ => d == device
    | .listen _ arrivals _ _ => arrivals.contains (some device)
    | _ => false

def canMove (w : World) (t : Task) : Bool :=
  t.aborted ||
    match t.body with
    | .serve device _ stage held _ =>
      if held then w.hasRung t
      else match stage with
        | .opening _ | .reading _ =>
          w.stopping || t.timer.isNone || w.hasRung t ||
            (w.devices[device]?).any (!·.inbound.isEmpty)
        | .working _ | .leaving _ _ => true
    | .write _ q stalled =>
      !stalled && ((w.house.services.queues[q]?).any (!·.items.isEmpty) || !w.hasSender q)
    | .farewell _ held => !held || w.hasRung t
    | .forward subscription =>
      w.stopping ||
        match (w.house.services.bus.receive subscription).2 with
        | .pending => false
        | _ => true
    | .listen _ arrivals children stage =>
      match stage with
      | .accepting => w.stopping || !arrivals.isEmpty
      | .draining => t.timer.isNone || w.hasRung t || !children.any w.isAlive
      | .cutting => !children.any w.isAlive
    | .watch => w.stopping

end World

end DeviceGateway.Rehearsal
