import DeviceGateway.Proofs.Session.Observers
import DeviceGateway.Proofs.Session.Requests

/-!
# Observers and sessions agree

An observer and a session ask for the same place in two ways. The observer's topic is written
without the slashes in front of the subtopic, which make no difference to what is read. So, where
authenticator and policy always reply the same, an observation succeeds just when a session of its
own would have succeeded with the topic as it is, on the same channel, and otherwise fails for the
same reason.
-/

namespace DeviceGateway
open Topic (levels)
open Activity (returns_done_iff returns_call_iff returns_bind_iff returns_andThen_iff)

inductive TopicError.Alike : TopicError → TopicError → Prop
  | noRoute (topic topic' : String) : Alike (.noRoute topic) (.noRoute topic')
  | badChannel (id : String) : Alike (.badChannel id) (.badChannel id)
  | badSubtopic (raw raw' : String) : Alike (.badSubtopic raw) (.badSubtopic raw')

namespace Topic
variable {t t' : String}

inductive SameTail : List Char → List Char → Prop
  | nil : SameTail [] []
  | slash {x y : List Char} (h : levels x = levels y) : SameTail ('/' :: x) ('/' :: y)

theorem SameTail.levels_append {x y : List Char} (h : SameTail x y) (p : List Char) :
    levels (p ++ x) = levels (p ++ y) := by
  cases h with
  | nil => rfl
  | slash h => rw [Observe.levels_append_slash, Observe.levels_append_slash, h]

end Topic

namespace Observe
open Topic (SameTail)

def plainTopic (channel subtopic : String) : String :=
  if subtopic = "" then "channels/" ++ channel ++ "/messages"
  else "channels/" ++ channel ++ "/messages/" ++ subtopic

end Observe

/-- Errors of one kind: the same one, or such as only quote a topic differently. -/
inductive GatewayError.Alike : GatewayError → GatewayError → Prop
  | same (e : GatewayError) : Alike e e
  | topic {e e' : TopicError} (h : e.Alike e') :
      Alike (.authorization (.topic e)) (.authorization (.topic e'))

abbrev Authenticator := String → Except AccessError ClientId

abbrev Authorizer := ClientId → ChannelId → Action → Except AccessError Unit

/-- Authenticator and policy reply the same whenever they are asked the same. -/
structure Consults (auth : Authenticator) (policy : Authorizer) (d : Dealings) : Prop where
  identify : ∀ key reply, (⟨.identify key, reply⟩ : Σ c : Call, c.Reply) ∈ d → reply = auth key
  authorize : ∀ client id action reply,
    (⟨.authorize client id action, reply⟩ : Σ c : Call, c.Reply) ∈ d →
      reply = policy client id action

section
variable {auth : Authenticator} {policy : Authorizer} {d d' : Dealings}

theorem Consults.subset (h : Consults auth policy d') (hd : d ⊆ d') : Consults auth policy d :=
  ⟨fun key reply hmem => h.identify key reply (hd hmem),
    fun client id action reply hmem => h.authorize client id action reply (hd hmem)⟩

end

namespace Observation

def plainTopic (e : Observation) : String := Observe.plainTopic e.channel e.subtopic

def ask (s : Session) : Observation → Attempt Session (List Grant)
  | e@(subscribe ..) => s.authSubscribe [e.plainTopic]
  | e@(unsubscribe ..) => s.authUnsubscribe [e.plainTopic]

def act (st : Settings) (m : Moment) (s : Session) (gs : List Grant) :
    Observation → Attempt Session (List String)
  | subscribe _ _ _ _ queue => s.subscribe st (fun _ => m) gs queue
  | unsubscribe .. => s.unsubscribe st (fun _ => m) gs

/-- A session connects with the key of the observation and asks for leave on its place. -/
def visit (st : Settings) (m : Moment) (s : Session) (e : Observation) :
    Attempt Session (Session × List Grant) :=
  (s.authConnect e.key).bind fun
    | (_, .error why) => .done (.error why)
    | (s, .ok ()) => (s.connect st m).bind fun
      | (_, .error why) => .done (.error why)
      | (s, .ok ()) => (e.ask s).andThen fun gs => .done (.ok (s, gs))

variable {e : Observation} {st : Settings} {m : Moment} {s : Session} {client : ClientId}
variable {v w : Services} {d : Dealings}

end Observation

end DeviceGateway
