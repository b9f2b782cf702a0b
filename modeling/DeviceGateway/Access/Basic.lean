import DeviceGateway.Channel

/-! Who may do what: the actions on a channel, the reasons to refuse one, and the two tables that
decide, secrets with their clients and rules. -/

namespace DeviceGateway

inductive Action
  | publish
  | subscribe
  | unsubscribe
  deriving DecidableEq, Repr

def Action.name : Action → String
  | .publish => "publish"
  | .subscribe => "subscribe"
  | .unsubscribe => "unsubscribe"

def Action.ofString? (s : String) : Option Action :=
  [Action.publish, .subscribe, .unsubscribe].find? (·.name == s)

inductive AccessError
  | missingCredential
  | notFound
  | storeUnavailable (why : String)
  | denied (client : ClientId) (channel : ChannelId) (action : Action)
  | policyUnavailable (why : String)
  deriving DecidableEq

def AccessError.message : AccessError → String
  | .missingCredential => "missing credential"
  | .notFound => "identity not found"
  | .storeUnavailable why => "identity store unavailable: " ++ why
  | .denied client channel action =>
    client.text ++ " may not " ++ action.name ++ " on channel " ++ channel.text
  | .policyUnavailable why => "policy unavailable: " ++ why

structure IdentityStore where
  things : List (String × ClientId)

namespace IdentityStore

/-- The client of a secret; of several entries for one secret the last counts. -/
def identify (store : IdentityStore) (secret : String) : Except AccessError ClientId :=
  match store.things.reverse.find? (·.1 == secret) with
  | some (_, client) => .ok client
  | none => .error .notFound

def size (store : IdentityStore) : Nat := (store.things.map (·.1)).eraseDups.length

end IdentityStore

def wildcard : String := "*"

structure Rule where
  client : String
  channel : String
  action : Action
  deriving DecidableEq, Repr

def Rule.allows (r : Rule) (client : ClientId) (channel : ChannelId) (action : Action) : Bool :=
  r.action == action && (r.client == wildcard || r.client == client.text) &&
    (r.channel == wildcard || r.channel == channel.text)

structure Policy where
  rules : List Rule

def Policy.authorize (p : Policy) (client : ClientId) (channel : ChannelId) (action : Action) :
    Except AccessError Unit :=
  if p.rules.any (·.allows client channel action) then .ok ()
  else .error (.denied client channel action)

theorem Action.ofString?_name (a : Action) : ofString? a.name = some a := by
  cases a <;> decide

theorem Policy.authorize_eq_ok_iff {p : Policy} {client : ClientId} {channel : ChannelId}
    {action : Action} :
    p.authorize client channel action = .ok () ↔ ∃ r ∈ p.rules, r.allows client channel action := by
  simp only [authorize]
  split <;> rename_i h <;> simpa using h

end DeviceGateway
