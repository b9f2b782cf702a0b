import DeviceGateway.Access.Basic
import DeviceGateway.Access.Cache

/-! Finding out who a secret belongs to: the cache first, then the store, whose answer is kept for
later. A cache that fails is a miss when read and ignored when written. -/

namespace DeviceGateway

inductive Errand
  | lookUp (key : String)
  | resolve (secret : String)
  | keep (key : String) (client : ClientId)

abbrev Errand.Reply : Errand → Type
  | lookUp _ => Except CacheError (Option String)
  | resolve _ => Except AccessError ClientId
  | keep _ _ => Except CacheError Unit

def secretKey (secret : String) : String := "auth:secret:" ++ secret

def identifyAnew (secret : String) :
    Activity Unit Errand Errand.Reply (Except AccessError ClientId) :=
  .call () (.resolve secret) fun
    | .error _ => .done (.error .notFound)
    | .ok client => .call () (.keep (secretKey secret) client) fun _ => .done (.ok client)

def identify (secret : String) : Activity Unit Errand Errand.Reply (Except AccessError ClientId) :=
  if secret = "" then .done (.error .missingCredential)
  else .call () (.lookUp (secretKey secret)) fun
    | .ok (some id) => .done (.ok ⟨id⟩)
    | _ => identifyAnew secret

structure Registrar where
  cache : Cache := {}
  store : IdentityStore
  ttl : Duration := .ofSecs 600

def Registrar.answer (now : Nat) (r : Registrar) : (e : Errand) → Registrar × Outcome e.Reply
  | .lookUp key =>
    let (cache, reply) := r.cache.get now key
    ({ r with cache := cache }, .answer reply)
  | .resolve secret => (r, .answer (r.store.identify secret))
  | .keep key client =>
    let (cache, reply) := r.cache.set now key client.text r.ttl
    ({ r with cache := cache }, reply)

def Registrar.identify (r : Registrar) (now : Nat) (secret : String) :
    Registrar × Outcome (Except AccessError ClientId) :=
  (DeviceGateway.identify secret).run (Registrar.answer now) r

end DeviceGateway
