import DeviceGateway.EventLog
import DeviceGateway.Rehearsal.World

/-! What has happened in a rehearsal since one last looked. -/

namespace DeviceGateway.Rehearsal

structure Report where
  frames : List (String × List Bytes)
  closed : List String
  ended : List (String × Ending)
  events : List Event

/-- Sessions that end together may be recorded in any order: their events stand in the order of
their lines. -/
def sortFarewells (events : List Event) : List Event :=
  let runs := events.splitBy fun a b => a.operation == .disconnect && b.operation == .disconnect
  (runs.map fun run => run.mergeSort fun a b => !decide (b.line < a.line)).flatten

namespace World

def report (w : World) : Report where
  frames := (w.devices.map fun d => (d.name, d.frames.reverse)).filter (!·.2.isEmpty)
  closed := ((w.devices.filter (·.closed)).map (·.name)).mergeSort
  ended := w.ended.reverse
  events := sortFarewells (w.house.services.events.drop w.reported)

def reportRead (w : World) : World :=
  { w with
    devices := w.devices.map fun d => { d with frames := [], closed := false }
    ended := []
    reported := w.house.services.events.length }

end World

def undated (m : Message) : Message := { m with created := 0 }

structure Row where
  topic : String
  message : Message
  tokens : List String

def Row.add (n : Notification) (rs : List Row) : List Row :=
  let fresh : Row := ⟨n.topic, undated n.message, [n.token]⟩
  match rs with
  | [] => [fresh]
  | r :: rest =>
    if r.topic = fresh.topic ∧ r.message = fresh.message then
      { r with tokens := n.token :: r.tokens } :: rest
    else fresh :: r :: rest

/-- The rows of a drained queue. The order in which the broker offers to several registrations is
its own affair, so tokens are sorted. -/
def rows (ns : List Notification) : List Row :=
  (ns.foldr Row.add []).map fun r => { r with tokens := r.tokens.mergeSort }

end DeviceGateway.Rehearsal
