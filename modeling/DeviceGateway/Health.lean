import DeviceGateway.Backoff.Retry

/-! Waiting for a server that the gateway depends on. It is healthy when it answers a request with
status 200; anything else is a reason to ask again later, until patience runs out. -/

namespace DeviceGateway

structure HealthCheck where
  url : String
  timeout : Duration := .ofSecs 5

namespace HealthCheck

inductive Response
  | answered (status : Nat) (body : String)
  | unanswered (why : String)

inductive Fault
  | request (why : String)
  | unhealthy (status : Nat) (body : String)
  deriving DecidableEq, Repr

def Fault.message : Fault → String
  | .request why => "request failed: " ++ why
  | .unhealthy status body => "unhealthy (" ++ toString status ++ "): " ++ body

def judge : Response → Except Fault Unit
  | .answered 200 _ => .ok ()
  | .answered status body => .error (.unhealthy status body)
  | .unanswered why => .error (.request why)

/-- Asks until the server is healthy. Response `i` comes after `cost i` milliseconds, and all are
alike after the first `varied`. -/
def waitUntilReady (p : Backoff.Policy) (draw : Float → Float → Float) (response : Nat → Response)
    (cost : Nat → Nat) (varied : Nat) : Option (Outcome (Except GatewayError Unit)) :=
  let fault (i : Nat) : Option String :=
    match judge (response i) with
    | .ok () => none
    | .error e => some e.message
  (Backoff.retry p draw fault cost varied).map fun r =>
    match r.result with
    | .crash => .crash
    | .answer (.ok ()) => .answer (.ok ())
    | .answer (.error why) => .answer (.error (Backoff.notReady why))

end HealthCheck

end DeviceGateway
