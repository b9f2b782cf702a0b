import DeviceGateway.Message

/-! Bounded queues of notifications. A queue never holds more than its capacity: what does not fit
is dropped, and a queue whose receiver is gone takes nothing. -/

namespace DeviceGateway

structure Notification where
  topic : String
  token : String
  message : Message
  deriving DecidableEq

structure Queue where
  capacity : Nat
  items : List Notification := []
  isOpen : Bool := true
  items_le : items.length ≤ capacity := by simp

inductive Queue.Taken
  | taken
  | full
  | closed
  deriving DecidableEq, Repr

namespace Queue

def offer (q : Queue) (n : Notification) : Queue × Taken :=
  if !q.isOpen then (q, .closed)
  else if h : q.items.length < q.capacity then
    ({ q with items := q.items ++ [n], items_le := by rw [List.length_append]; exact h }, .taken)
  else (q, .full)

def take (q : Queue) : Option (Notification × Queue) :=
  q.items.head?.map fun n =>
    (n, { q with items := q.items.tail, items_le := by have := q.items_le; simp; omega })

def drain (q : Queue) : List Notification × Queue :=
  (q.items, { q with items := [], items_le := by simp })

def close (q : Queue) : Queue := { q with items := [], isOpen := false, items_le := by simp }

def free (q : Queue) : Nat := q.capacity - q.items.length

end Queue

def defaultQueueDepth : Nat := 64

abbrev QueueId := Nat

abbrev Queues := List Queue

def Queues.add (qs : Queues) (capacity : Nat) : Queues × QueueId :=
  (qs ++ [⟨capacity, [], true, by simp⟩], qs.length)

def Queues.offer (qs : Queues) (id : QueueId) (n : Notification) : Queues × Queue.Taken :=
  match qs[id]? with
  | none => (qs, .closed)
  | some q =>
    let (q, reply) := q.offer n
    (qs.set id q, reply)

theorem Queue.offer_items (q : Queue) (n : Notification) :
    (q.offer n).1.items =
      if q.isOpen ∧ q.items.length < q.capacity then q.items ++ [n] else q.items := by
  simp only [Queue.offer]
  split
  · simp_all
  · split <;> simp_all

theorem Queues.length_offer (qs : Queues) (id : QueueId) (n : Notification) :
    (qs.offer id n).1.length = qs.length := by
  simp only [Queues.offer]
  split <;> simp

end DeviceGateway
