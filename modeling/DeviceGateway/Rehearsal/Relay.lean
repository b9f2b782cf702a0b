import DeviceGateway.Duration
import DeviceGateway.Forwarder

/-! The forwarder against a scripted receiver. All deliveries wait from the start; each is answered
after a while or given up when it takes too long, an answer at the last moment still counting; and
at a given moment the forwarder is stopped or the bus closed. Time is in ticks. -/

namespace DeviceGateway.Rehearsal

inductive Manner
  | answers (success : Bool)
  | hangs
  | answersAfter (ticks : Nat)

/-- A call as the receiver saw it; `answer` is missing when the call was cut off. -/
structure Relayed where
  moment : Nat
  topic : String
  message : Message
  answer : Option Bool

inductive RelayEnd
  | stop
  | busClosed

structure Relay where
  now : Nat := 0
  state : Forwarder.State := .waiting
  calls : List Relayed := []

namespace Relay

/-- The length of a call and its answer, when calls are cut off after `timeout`. -/
def treat (timeout : Nat) : Manner → Nat × Option Bool
  | .answers success => (0, some success)
  | .hangs => (timeout, none)
  | .answersAfter d => if d ≤ timeout then (d, some true) else (timeout, none)

def pass (timeout : Nat) (manner : Nat → Manner) (r : Relay) (d : Delivery) : Relay :=
  let (ticks, answer) := treat timeout (manner r.calls.length)
  let (topic, message) := Forwarder.passed d
  let state := (r.state.step (.delivery d)).step (if answer.isSome then .answered else .timedOut)
  { now := r.now + ticks, state := state, calls := ⟨r.now, topic, message, answer⟩ :: r.calls }

def isStopped (e : RelayEnd) (moment now : Nat) : Bool :=
  match e with
  | .stop => moment ≤ now
  | .busClosed => false

def run (timeout : Nat) (manner : Nat → Manner) (e : RelayEnd) (moment : Nat) :
    Relay → List Delivery → Relay
  | r, [] =>
    { r with
      now := max r.now moment
      state := r.state.step (match e with | .stop => .stop | .busClosed => .busEnded) }
  | r, d :: rest =>
    if isStopped e moment r.now then { r with state := r.state.step .stop }
    else run timeout manner e moment (r.pass timeout manner d) rest

end Relay

end DeviceGateway.Rehearsal
