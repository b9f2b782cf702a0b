import DeviceGateway.Duration
import DeviceGateway.Session.Basic
import DeviceGateway.Wire.Packet

/-! Serving one connection. The first frame has to be a Connect that is accepted; then packets are
handled one after the other until the device leaves, falls silent, breaks the rules, or the gateway
stops. However it ends, the session is disconnected. -/

namespace DeviceGateway

structure ServeSettings where
  connectTimeout : Duration := .ofSecs 10
  idleTimeout : Duration := .ofSecs 90
  drainTimeout : Duration := .ofSecs 5
  deliveryQueue : Nat := defaultQueueDepth

inductive Arrival
  | frame (bytes : Bytes)
  | closed
  | failed (e : LinkError)
  | silence
  | stop

inductive Next
  | begin
  | proceed
  | leave (outcome : Except GatewayError Unit)

namespace Session

def unexpected (why : String) : GatewayError := .packet (.unexpected why)

def sendThen (s : Session) (p : Packet) (next : Next) : Work Session (Session × Next) :=
  .call s (.send p) fun
    | .ok () => .done (s, next)
    | .error e => .done (s, .leave (.error (.link e)))

def refuse (s : Session) (code : UInt16) (text : String) (e : GatewayError) :
    Work Session (Session × Next) :=
  s.sendThen (.error code text) (.leave (.error e))

def welcome (st : Settings) (m : Moment) (s : Session) (secret : String) :
    Work Session (Session × Next) :=
  (s.authConnect secret).bind fun
    | (s, .error e) => s.refuse Packet.unauthorized "unauthorized" e
    | (s, .ok ()) =>
      (s.connect st m).bind fun
        | (s, .error e) => .done (s, .leave (.error e))
        | (s, .ok ()) => s.sendThen .connAck .begin

def opening (st : Settings) (m : Moment) (s : Session) : Arrival → Work Session (Session × Next)
  | .stop => .done (s, .leave (.ok ()))
  | .closed => .done (s, .leave (.error (unexpected "connection closed before connect")))
  | .failed e => .done (s, .leave (.error (.link e)))
  | .silence => .done (s, .leave (.error (unexpected "connect timed out")))
  | .frame bytes =>
    match Packet.ofFrame? bytes with
    | none => s.refuse Packet.badPacket "malformed packet" (.packet .malformed)
    | some (.connect secret) => s.welcome st m secret
    | some _ =>
      s.refuse Packet.badPacket "expected Connect" (unexpected "first packet must be Connect")

def errorPacket (e : GatewayError) : Packet :=
  let code := match e with
    | .authorization _ => Packet.forbidden
    | .forwarding _ => Packet.unavailable
    | .authentication _ => Packet.unauthorized
    | _ => Packet.badPacket
  .error code e.message

def reply {α : Type} (s : Session) (answer : α → Option Packet) (work : Attempt Session α) :
    Work Session (Session × Next) :=
  work.bind fun
    | .error e => s.sendThen (errorPacket e) .proceed
    | .ok a =>
      match answer a with
      | some p => s.sendThen p .proceed
      | none => .done (s, .proceed)

def packet (st : Settings) (m : Moments) (queue : QueueId) (s : Session) :
    Packet → Work Session (Session × Next)
  | .publish topic payload =>
    s.reply (fun _ => none) ((s.authPublish topic).andThen fun g => s.publish st (m 0) g payload)
  | .subscribe topics =>
    s.reply (some ∘ .subAck) ((s.authSubscribe topics).andThen fun gs => s.subscribe st m gs queue)
  | .unsubscribe topics =>
    s.reply (some ∘ .unsubAck) ((s.authUnsubscribe topics).andThen fun gs => s.unsubscribe st m gs)
  | .ping => s.sendThen .pong .proceed
  | .disconnect => .done (s, .leave (.ok ()))
  | .connect _ => s.refuse Packet.badPacket "already connected" (unexpected "duplicate Connect")
  | _ => s.sendThen (.error Packet.badPacket "unexpected packet") .proceed

def reading (st : Settings) (m : Moments) (queue : QueueId) (s : Session) :
    Arrival → Work Session (Session × Next)
  | .stop | .closed | .silence => .done (s, .leave (.ok ()))
  | .failed e => .done (s, .leave (.error (.link e)))
  | .frame bytes =>
    match Packet.ofFrame? bytes with
    | none => s.refuse Packet.badPacket "malformed packet" (.packet .malformed)
    | some p => s.packet st m queue p

end Session

inductive Serving
  | opening (s : Session)
  | reading (s : Session)
  | working (work : Work Session (Session × Next))
  | leaving (outcome : Except GatewayError Unit) (work : Work Session Session)

namespace Serving

/-- The session that still has to be disconnected should the serving be cut off here. -/
def guarded? : Serving → Option Session
  | opening s | reading s | working (.call s _ _) | working (.done (s, _)) => some s
  | leaving _ _ => none

def arrive (st : Settings) (m : Moments) (queue : QueueId) : Serving → Arrival → Serving
  | opening s, a => working (s.opening st (m 0) a)
  | reading s, a => working (s.reading st m queue a)
  | v, _ => v

def settle (st : Settings) (m : Moment) (s : Session) : Next → Serving × Bool
  | .begin => (reading s, true)
  | .proceed => (reading s, false)
  | .leave outcome => (leaving outcome (s.disconnect st m), false)

end Serving

end DeviceGateway
