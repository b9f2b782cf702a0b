import DeviceGateway.Gateway
import DeviceGateway.Rehearsal.LogFilter
import DeviceGateway.Rehearsal.Scene

/-! A whole gateway in rehearsal, with observers that share one queue. Its listeners and its
forwarder are a group of tasks: the first that ends makes the others stop, and the run is over when
all have ended. -/

namespace DeviceGateway.Rehearsal

structure Running where
  scene : Scene
  tasks : List String
  group : TaskGroup
  queue : QueueId

def World.awaited (w : World) (due : Nat) : (c : Call) → World × Option c.Reply
  | .record e => ({ w with house := { w.house.keep e with now := due } }, some (.ok ()))
  | c => (w, (none : Option c.Reply))

/-- Does work to its end and lets time pass where it has to wait. There is no result when it waits
for ever or crashes. -/
def World.attend {α : Type} : World → Work Unit α → World × Option α
  | w, .done a => (w, some a)
  | w, .call _ c k =>
    match w.perform none c with
    | (w, .reply r) => attend w (k r)
    | (w, .wait (some due)) =>
      match w.awaited due c with
      | (w, some r) => attend w (k r)
      | (w, none) => (w, none)
    | (w, .wait none) => (w, none)
    | (w, .crash) => (w, none)

namespace Running

def start (g : Gateway) (house : House) : Except StartupError Running :=
  match g.build house.services.bus with
  | (_, .error e) => .error e
  | (bus, .ok id) =>
    let house := { house with services := { house.services with bus := bus, settings := g.settings } }
    let (w, queue) := World.newQueue { house := house, limits := g.limits } defaultQueueDepth
    let bodies := [.listen .mqtt [] [] .accepting, .listen .ws [] [] .accepting, .forward id, .watch]
    let w := (g.tasks.zip bodies).foldl (fun w (name, body) => (w.spawn (some name) body).1) w
    .ok { scene := { world := w }, tasks := g.tasks, group := g.group, queue := queue }

def endOf : Ending → TaskEnd
  | .result (.ok ()) => .returned
  | .result (.error e) => .failed e
  | .cancelled | .crashed => .crashed

def join (r : Running) : Running :=
  let w := r.scene.world
  let group := w.ended.reverse.foldl
    (fun g (name, e) => (g.finish (r.tasks.idxOf name) name (endOf e)).join w.house.now) r.group
  { r with
    scene := { r.scene with world := { w with ended := [], stopping := w.stopping || group.stopping } }
    group := group }

def settle (r : Running) : Running :=
  let r := { r with scene := r.scene.settle }.join
  { r with scene := r.scene.settle }.join

def stop (r : Running) : Running :=
  { r with scene := r.scene.stop.1, group := r.group.requestStop }

def within {α : Type} (r : Running) (f : Scene → Scene × α) : Running × α :=
  let (scene, a) := f r.scene
  ({ r with scene := scene }, a)

def attend {α : Type} (r : Running) (work : Work Unit α) : Running × Option α :=
  r.within fun sc =>
    let (w, a) := sc.world.attend work
    ({ sc with world := w }, a)

def observe (r : Running) (key channel subtopic token : String) :
    Running × Option (Except GatewayError Unit) :=
  r.attend (Observe.subscribe r.scene.world.settings World.moment key channel subtopic token r.queue)

def unobserve (r : Running) (key channel subtopic token : String) :
    Running × Option (Except GatewayError Unit) :=
  r.attend (Observe.unsubscribe r.scene.world.settings World.moment key channel subtopic token)

def notified? (r : Running) : Option (Notification × Running) :=
  ((r.scene.services.queues[r.queue]?).bind Queue.take).map fun (n, q) =>
    (n, { r with scene := r.scene.modifyServices fun s => { s with queues := s.queues.set r.queue q } })

def registrations (r : Running) : Nat := r.scene.services.broker.size

def result? (r : Running) : Option (Except GatewayError Unit) :=
  if r.group.isOver then some r.group.result else none

def eventsByClient (r : Running) : List (ClientId × List Event) :=
  let events := r.scene.services.events
  (events.map (·.client)).eraseDups.map fun c => (c, events.filter (·.client = c))

end Running

end DeviceGateway.Rehearsal
