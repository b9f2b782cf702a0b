import DeviceGateway.Bus.Queue
import DeviceGateway.Subject

/-! The registrations of sessions and observers, and the fan-out of messages to their queues. A
registration is known by its owner and token; registering again under the same key replaces it. A
publish has two steps, since others may come between them: it offers to every matching queue, and
then takes away what it found closed. -/

namespace DeviceGateway

structure Registration where
  owner : String
  token : String
  filter : String
  queue : QueueId
  deriving DecidableEq, Repr

abbrev Registration.key (r : Registration) : String × String := (r.owner, r.token)

structure Broker where
  registrations : List Registration := []

namespace Broker

def find? (b : Broker) (owner token : String) : Option Registration :=
  b.registrations.find? (·.key == (owner, token))

def erase (b : Broker) (owner token : String) : Broker :=
  ⟨b.registrations.filter (·.key != (owner, token))⟩

def register (b : Broker) (r : Registration) : Broker :=
  ⟨(b.erase r.owner r.token).registrations ++ [r]⟩

def registerAll (b : Broker) (owner : String) (entries : List (String × String)) (queue : QueueId) :
    Broker :=
  entries.foldl (fun b (token, filter) => b.register ⟨owner, token, filter, queue⟩) b

def deregister (b : Broker) (owner token : String) : Broker × Bool :=
  (b.erase owner token, (b.find? owner token).isSome)

def deregisterFilter (b : Broker) (owner token filter : String) : Broker × Bool :=
  match b.find? owner token with
  | some r => if r.filter = filter then (b.erase owner token, true) else (b, false)
  | none => (b, false)

def deregisterOwner (b : Broker) (owner : String) : Broker × Nat :=
  let kept := b.registrations.filter (·.owner != owner)
  (⟨kept⟩, b.registrations.length - kept.length)

def size (b : Broker) : Nat := b.registrations.length

/-- What a fan-out has done so far: the queues, how many took the message, and the keys of the
registrations whose queue was closed. -/
structure FanOut where
  queues : Queues
  delivered : Nat := 0
  gone : List (String × String) := []

def FanOut.offer (topic : String) (message : Message) (f : FanOut) (r : Registration) : FanOut :=
  if Subject.filterMatches r.filter topic then
    let (queues, reply) := f.queues.offer r.queue ⟨topic, r.token, message⟩
    match reply with
    | .taken => { f with queues := queues, delivered := f.delivered + 1 }
    | .full => { f with queues := queues }
    | .closed => { f with queues := queues, gone := f.gone ++ [r.key] }
  else f

def fanOut (b : Broker) (topic : String) (message : Message) (queues : Queues) : FanOut :=
  b.registrations.foldl (FanOut.offer topic message) { queues := queues }

/-- Removes the registrations with these keys, whatever they are by now. -/
def prune (b : Broker) (gone : List (String × String)) : Broker :=
  ⟨b.registrations.filter fun r => !gone.contains r.key⟩

def publish (b : Broker) (topic : String) (message : Message) (queues : Queues) :
    Broker × Queues × Nat :=
  let f := b.fanOut topic message queues
  (b.prune f.gone, f.queues, f.delivered)

theorem mem_erase {b : Broker} {owner token : String} {r : Registration} :
    r ∈ (b.erase owner token).registrations ↔ r ∈ b.registrations ∧ r.key ≠ (owner, token) := by
  simp [erase]

theorem mem_register {b : Broker} {r s : Registration} :
    s ∈ (b.register r).registrations ↔ s = r ∨ (s ∈ b.registrations ∧ s.key ≠ r.key) := by
  simp only [register, List.mem_append, mem_erase, List.mem_singleton]
  exact or_comm

end Broker

end DeviceGateway
