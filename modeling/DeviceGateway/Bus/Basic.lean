import DeviceGateway.Message
import DeviceGateway.Subject
import DeviceGateway.Text.Quoted

/-! The bus. Every subscription has a mailbox of its own without a bound, and a publish puts a
delivery into the mailbox of every registered subscription whose pattern matches. Closing empties
the registry; what the mailboxes hold can still be received. Subscribe, publish and close are each
made of two steps, the first of which looks at or sets the flag alone. -/

namespace DeviceGateway

structure Delivery where
  subject : String
  message : Message
  deriving DecidableEq

inductive BusError
  | closed
  | invalidSubject (subject : String)
  | publishFailed (subject reason : String)
  deriving DecidableEq, Repr

def BusError.message : BusError → String
  | .closed => "bus is closed"
  | .invalidSubject subject => "invalid subject " ++ Text.quoted subject
  | .publishFailed subject reason => "publish to " ++ subject ++ " failed: " ++ reason

/-- What a subscription has been sent and not yet received. It is `held` until its holder drops
it. -/
structure Mailbox where
  pattern : String
  waiting : List Delivery := []
  held : Bool := true

abbrev SubscriptionId := Nat

structure Bus where
  mailboxes : List Mailbox := []
  registry : List SubscriptionId := []
  isClosed : Bool := false
  published : Nat := 0

inductive Received
  | delivery (d : Delivery)
  | pending
  | ended
  deriving DecidableEq

namespace Bus

def modify (b : Bus) (id : SubscriptionId) (f : Mailbox → Mailbox) : Bus :=
  { b with mailboxes := b.mailboxes.modify id f }

def enroll (b : Bus) (pattern : String) : Bus × SubscriptionId :=
  let id := b.mailboxes.length
  ({ b with mailboxes := b.mailboxes ++ [{ pattern := pattern }], registry := b.registry ++ [id] }, id)

def concerned (b : Bus) (subject : String) : List SubscriptionId :=
  b.registry.filter fun id =>
    (b.mailboxes[id]?).any fun box => Subject.patternMatches box.pattern subject

/-- Puts a delivery into every mailbox it concerns, forgets those whose holder is gone, and counts
the publish. -/
def post (b : Bus) (d : Delivery) : Bus :=
  let ids := b.concerned d.subject
  let gone := ids.filter fun id => (b.mailboxes[id]?).all (!·.held)
  let posted := (ids.filter (!gone.contains ·)).foldl
    (fun b id => b.modify id fun box => { box with waiting := box.waiting ++ [d] }) b
  { posted with registry := b.registry.filter (!gone.contains ·), published := b.published + 1 }

def subscribe (b : Bus) (pattern : String) : Bus × Except BusError SubscriptionId :=
  if b.isClosed then (b, .error .closed)
  else if !Subject.isPattern pattern then (b, .error (.invalidSubject pattern))
  else
    let (b, id) := b.enroll pattern
    (b, .ok id)

def publish (b : Bus) (subject : String) (message : Message) : Bus × Except BusError Unit :=
  if b.isClosed then (b, .error .closed)
  else if !Subject.isSubject subject then (b, .error (.invalidSubject subject))
  else (b.post ⟨subject, message⟩, .ok ())

def receive (b : Bus) (id : SubscriptionId) : Bus × Received :=
  match b.mailboxes[id]? with
  | none => (b, .ended)
  | some box =>
    match box.waiting with
    | d :: rest => (b.modify id fun box => { box with waiting := rest }, .delivery d)
    | [] => (b, if b.registry.contains id then .pending else .ended)

def drop (b : Bus) (id : SubscriptionId) : Bus :=
  { b.modify id fun box => { box with waiting := [], held := false } with
    registry := b.registry.filter (· != id) }

/-- The first step of closing: from here on nobody new gets in. -/
def flag (b : Bus) : Bus := { b with isClosed := true }

def forget (b : Bus) : Bus := { b with registry := [] }

def close (b : Bus) : Bus := b.flag.forget

def subscribers (b : Bus) : Nat := b.registry.length

end Bus

end DeviceGateway
