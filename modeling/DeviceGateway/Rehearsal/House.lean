import DeviceGateway.Services

/-! The services of a rehearsal. They can be told to fail, they count their calls, and they know the
time, which is in ticks and moves only from outside. -/

namespace DeviceGateway.Rehearsal

inductive LogMode
  | works
  | unavailable
  | unwritable
  | hangs
  | keepsAfter (ticks : Nat)

inductive BusMode
  | works
  | closed
  | noRoute

structure Faults where
  cacheReads : Bool := false
  cacheWrites : Bool := false
  store : Bool := false
  policy : Bool := false
  bus : BusMode := .works
  log : LogMode := .works

structure House where
  services : Services
  now : Nat := 0
  faults : Faults := {}
  lookups : Nat := 0
  published : Nat := 0
  subscribed : Nat := 0
  unsubscribed : Nat := 0
  asked : Bool := false

/-- What a call meets with. A wait ends at a tick or never. -/
inductive Reaction (ρ : Type)
  | reply (r : ρ)
  | wait (due : Option Nat)
  | crash

def Reaction.ofOutcome {ρ : Type} : Outcome ρ → Reaction ρ
  | .answer r => .reply r
  | .crash => .crash

namespace House

def meters (h : House) : List String :=
  if h.asked || 0 < h.published + h.subscribed + h.unsubscribed then
    ["edgegate_request_latency_seconds", "edgegate_requests_total"]
  else []

def nanos (h : House) : Nat := h.now * Duration.milli

def cacheDown : CacheError := .unavailable "down"

def plainErrand (h : House) (e : Errand) : House × Outcome e.Reply :=
  let (registrar, reply) := h.services.registrar.answer h.nanos e
  ({ h with services := { h.services with registrar := registrar } }, reply)

def errand (h : House) : (e : Errand) → House × Outcome e.Reply
  | .lookUp key =>
    if h.faults.cacheReads then (h, .answer (.error cacheDown)) else h.plainErrand (.lookUp key)
  | .resolve secret =>
    let h := { h with lookups := h.lookups + 1 }
    if h.faults.store then (h, .answer (.error (.storeUnavailable "refused")))
    else h.plainErrand (.resolve secret)
  | .keep key client =>
    if h.faults.cacheWrites then (h, .answer (.error cacheDown)) else h.plainErrand (.keep key client)

def identify (h : House) (secret : String) : House × Outcome (Except AccessError ClientId) :=
  (DeviceGateway.identify secret).run errand h

def authorize (h : House) (client : ClientId) (channel : ChannelId) (action : Action) :
    Except AccessError Unit :=
  if h.faults.policy then .error (.policyUnavailable "refused")
  else h.services.policy.authorize client channel action

def remember (h : House) (key value : String) (ttl : Duration) :
    House × Outcome (Except CacheError Unit) :=
  if h.faults.cacheWrites then (h, .answer (.error cacheDown))
  else
    let r := h.services.registrar
    let (cache, reply) := r.cache.set h.nanos key value ttl
    ({ h with services := { h.services with registrar := { r with cache := cache } } }, reply)

def keep (h : House) (e : Event) : House := { h with services := h.services.record e }

def plain (h : House) (c : Call) : House × Reaction c.Reply :=
  let (services, outcome) := h.services.answer h.nanos c
  ({ h with services := services }, .ofOutcome outcome)

def perform (h : House) : (c : Call) → House × Reaction c.Reply
  | .identify secret =>
    let (h, outcome) := h.identify secret
    (h, .ofOutcome outcome)
  | .authorize client channel action => (h, .reply (h.authorize client channel action))
  | .publish subject message =>
    let h := { h with published := h.published + 1 }
    match h.faults.bus with
    | .works => h.plain (.publish subject message)
    | .closed => (h, .reply (.error .closed))
    | .noRoute => (h, .reply (.error (.publishFailed subject "no route")))
  | .record e =>
    match h.faults.log with
    | .works | .keepsAfter 0 => h.plain (.record e)
    | .unavailable => (h, .reply (.error (.unavailable "down")))
    | .unwritable => (h, .reply (.error .unwritable))
    | .hangs => (h, .wait none)
    | .keepsAfter ticks => (h, .wait (some (h.now + ticks)))
  | .register owner entries queue => h.plain (.register owner entries queue)
  | .deregister owner token => h.plain (.deregister owner token)
  | .deregisterFilter owner token filter => h.plain (.deregisterFilter owner token filter)
  | .deregisterOwner owner => h.plain (.deregisterOwner owner)
  | .send p => h.plain (.send p)

end House

end DeviceGateway.Rehearsal
