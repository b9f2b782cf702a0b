import DeviceGateway.Access.Basic
import DeviceGateway.Bus.Basic
import DeviceGateway.Text.Natural
import DeviceGateway.Topic

/-! Why something failed, and the text that says so. -/

namespace DeviceGateway

def maxFrameLength : Nat := 1024 * 1024

inductive LinkError
  | bind (address why : String)
  | acceptFailed (why : String)
  | sendFailed (why : String)
  | receiveFailed (why : String)
  | frameTooLarge (size : Nat)
  deriving DecidableEq, Repr

def LinkError.message : LinkError → String
  | .bind address why => "bind " ++ address ++ " failed: " ++ why
  | .acceptFailed why => "accept failed: " ++ why
  | .sendFailed why => "send failed: " ++ why
  | .receiveFailed why => "receive failed: " ++ why
  | .frameTooLarge size => "frame of " ++ toString size ++ " bytes exceeds the limit of " ++
      toString maxFrameLength ++ " bytes"

inductive PacketError
  | malformed
  | unexpected (why : String)
  deriving DecidableEq, Repr

def PacketError.message : PacketError → String
  | .malformed => "malformed packet"
  | .unexpected why => "invalid packet: " ++ why

inductive EventError
  | unwritable
  | unavailable (why : String)
  deriving DecidableEq, Repr

inductive Refusal
  | topic (e : TopicError)
  | access (e : AccessError)
  deriving DecidableEq

def Refusal.message : Refusal → String
  | .topic e => e.message
  | .access e => e.message

inductive SettingFault
  | number (fault : Text.NumberFault)
  | noUrl (value : String)
  | noThing (entry : String)
  | noRule (entry : String)
  | unknownAction (action : String)
  | emptyId (entry : String)
  deriving DecidableEq, Repr

def SettingFault.message : SettingFault → String
  | .number fault => fault.message
  | .noUrl value => "expected an http(s) URL, got " ++ Text.quoted value
  | .noThing entry => "expected secret=client_id, got " ++ Text.quoted entry
  | .noRule entry => "expected client:channel:action, got " ++ Text.quoted entry
  | .unknownAction action => "unknown action " ++ Text.quoted action
  | .emptyId entry => "empty id in " ++ Text.quoted entry

inductive StartupError
  | setting (name : String) (fault : SettingFault)
  | subscription (pattern : String) (e : BusError)
  | listener (label : String) (e : LinkError)
  | unhealthy (why : String)
  | failed (text : String)
  deriving DecidableEq, Repr

def settingLead : String := "EDGEGATE_"

def StartupError.message : StartupError → String
  | .setting name fault => "invalid " ++ settingLead ++ name ++ ": " ++ fault.message
  | .subscription pattern e => "failed to subscribe to " ++ pattern ++ ": " ++ e.message
  | .listener label e => label ++ " listener: " ++ e.message
  | .unhealthy why => "health check limit exceeded: " ++ why
  | .failed text => text

inductive EarlyEnd
  | returned (task : String)
  | crashed
  | busClosed
  deriving DecidableEq, Repr

def EarlyEnd.message : EarlyEnd → String
  | .returned task => task ++ " returned"
  | .crashed => "task panicked"
  | .busClosed => "bus subscription closed"

inductive GatewayError
  | authentication (e : AccessError)
  | authorization (r : Refusal)
  | forwarding (e : BusError)
  | notConnected
  | startup (e : StartupError)
  | link (e : LinkError)
  | packet (e : PacketError)
  | stopped (e : EarlyEnd)
  deriving DecidableEq

def GatewayError.message : GatewayError → String
  | .authentication e => "authentication failed: " ++ e.message
  | .authorization r => "authorization failed: " ++ r.message
  | .forwarding e => "forwarding failed: " ++ e.message
  | .notConnected => "session is not connected"
  | .startup e => "startup failed: " ++ e.message
  | .link e => e.message
  | .packet e => e.message
  | .stopped e => "terminated unexpectedly: " ++ e.message

end DeviceGateway
