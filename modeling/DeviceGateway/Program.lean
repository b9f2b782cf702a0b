import DeviceGateway.Config
import DeviceGateway.Gateway

/-! The program: a gateway configured by variables. A configuration that is wrong is reported on the
error output; what goes wrong later is a line of the log, which a filter may keep back. -/

namespace DeviceGateway

inductive LogLevel
  | off
  | error
  | warn
  | info
  | debug
  | trace
  deriving DecidableEq, Repr

structure LogLine where
  level : LogLevel
  target : String
  fields : List String

/-- How the log chooses its lines: whether a filter shows a line, or nothing when the text is no
filter. A filter without directives goes by `fallback`. -/
class LogFilters where
  shows? (text : String) (fallback : LogLevel) (line : LogLine) : Option Bool

structure Program where
  exitCode : Nat
  errorOutput : String := ""
  logged : Option String := none
  ran : Bool := false

namespace Program

def title : String := "edgegate"

def endLine : LogLine := ⟨.error, title, ["message", "error"]⟩

/-- Whether the log shows a bad end. When `filter` is missing or no filter, the configured level is
one, and otherwise the level is info. -/
def logsEnd [LogFilters] (filter : Option String) (level : String) : Bool :=
  ((filter.bind fun text => LogFilters.shows? text .error endLine).or
    (LogFilters.shows? level .off endLine)).getD true

def gateway (c : Config) : Gateway :=
  { mqttAddress := c.mqttAddress
    wsAddress := c.wsAddress
    settings := { instanceName := c.instanceName, subjectLead := c.subjectLead }
    patience := c.forwarderTimeout }

def run [LogFilters] (filter : Option String) (lookup : String → Option String) : Program :=
  match Config.ofLookup lookup with
  | .error e =>
    { exitCode := 1, errorOutput := title ++ ": " ++ (GatewayError.startup e).message ++ "\n" }
  | .ok c =>
    match (gateway c).build {} with
    | (_, .ok _) => { exitCode := 0, ran := true }
    | (_, .error e) =>
      { exitCode := 1
        logged := if logsEnd filter c.logLevel then some (GatewayError.startup e).message else none }

end Program

end DeviceGateway
