import DeviceGateway.Backoff.Policy
import DeviceGateway.Error
import DeviceGateway.Text.Blank

/-! The settings of a gateway, read from named variables. Values are trimmed, and a value that is
blank counts as missing; the first setting that is wrong decides the error. -/

namespace DeviceGateway

structure Config where
  logLevel : String := "info"
  mqttAddress : String := "0.0.0.0:1883"
  wsAddress : String := "0.0.0.0:8080"
  instanceName : String := ""
  subjectLead : String := "mqtt"
  forwarderTimeout : Duration := .ofSecs 30
  cacheTtl : Duration := .ofSecs 600
  healthCheck : Option String := none
  healthPatience : Duration := .ofSecs 900
  things : List (String × ClientId) := []
  rules : List Rule := []
  deriving DecidableEq

namespace Config

def setting? (lookup : String → Option String) (name : String) : Option (List Char) :=
  ((lookup (settingLead ++ name)).map fun v => Text.trim v.toList).filter (!·.isEmpty)

def text (lookup : String → Option String) (name fallback : String) : String :=
  ((setting? lookup name).map String.ofList).getD fallback

def duration (lookup : String → Option String) (unit : Nat → Duration) (name : String)
    (fallback : Duration) : Except StartupError Duration :=
  match setting? lookup name with
  | none => .ok fallback
  | some v =>
    match Text.natural (UInt64.size - 1) v with
    | .ok n => .ok (unit n)
    | .error fault => .error (.setting name (.number fault))

/-- The entries of a list: what stands between commas, trimmed, without the blank ones. -/
def entries (v : List Char) : List (List Char) :=
  ((Text.pieces (· == ',') v).map Text.trim).filter (!·.isEmpty)

def thing (entry : List Char) : Except SettingFault (String × ClientId) :=
  match Text.cutAt '=' entry with
  | some (secret, client) =>
    if secret.isEmpty || client.isEmpty then .error (.noThing (String.ofList entry))
    else .ok (String.ofList secret, ⟨String.ofList client⟩)
  | none => .error (.noThing (String.ofList entry))

def rule (entry : List Char) : Except SettingFault Rule :=
  match Text.pieces (· == ':') entry with
  | [client, channel, action] =>
    match Action.ofString? (String.ofList action) with
    | none => .error (.unknownAction (String.ofList action))
    | some action =>
      if client.isEmpty || channel.isEmpty then .error (.emptyId (String.ofList entry))
      else .ok ⟨String.ofList client, String.ofList channel, action⟩
  | _ => .error (.noRule (String.ofList entry))

def list {α : Type} (lookup : String → Option String) (entry : List Char → Except SettingFault α)
    (name : String) : Except StartupError (List α) :=
  match setting? lookup name with
  | none => .ok []
  | some v =>
    match (entries v).mapM entry with
    | .ok items => .ok items
    | .error fault => .error (.setting name fault)

def url (lookup : String → Option String) (name : String) : Except StartupError (Option String) :=
  match setting? lookup name with
  | none => .ok none
  | some v =>
    if (Text.afterLead "http://".toList v).isSome || (Text.afterLead "https://".toList v).isSome then
      .ok (some (String.ofList v))
    else .error (.setting name (.noUrl (String.ofList v)))

def ofLookup (lookup : String → Option String) : Except StartupError Config := do
  let forwarderTimeout ← duration lookup .ofMillis "FORWARDER_TIMEOUT_MS" (.ofSecs 30)
  let cacheTtl ← duration lookup .ofSecs "AUTH_CACHE_TTL_SECS" (.ofSecs 600)
  let healthCheck ← url lookup "HEALTH_CHECK"
  let healthPatience ← duration lookup .ofSecs "HEALTH_MAX_ELAPSED_SECS" (.ofSecs 900)
  let things ← list lookup thing "THINGS"
  let rules ← list lookup rule "POLICIES"
  return {
    logLevel := text lookup "LOG_LEVEL" "info"
    mqttAddress := text lookup "MQTT_ADDR" "0.0.0.0:1883"
    wsAddress := text lookup "WS_ADDR" "0.0.0.0:8080"
    instanceName := text lookup "INSTANCE" ""
    subjectLead := text lookup "SUBJECT_PREFIX" "mqtt"
    forwarderTimeout, cacheTtl, healthCheck, healthPatience, things, rules }

def identityStore (c : Config) : IdentityStore := ⟨c.things⟩

def policy (c : Config) : Policy := ⟨c.rules⟩

def healthPolicy (c : Config) : Backoff.Policy := { patience := c.healthPatience }

end Config

end DeviceGateway
