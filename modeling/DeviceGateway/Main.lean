import DeviceGateway.Rehearsal.LogFilter

/-! The command line. It reads the configuration from the environment and says what is wrong with
it. Listening itself is left to the system that embeds the library, and with it the log: the filters
here are those of the rehearsal. -/

open DeviceGateway

def settingNames : List String :=
  ["LOG_LEVEL", "MQTT_ADDR", "WS_ADDR", "INSTANCE", "SUBJECT_PREFIX", "FORWARDER_TIMEOUT_MS",
    "AUTH_CACHE_TTL_SECS", "HEALTH_CHECK", "HEALTH_MAX_ELAPSED_SECS", "THINGS", "POLICIES"]

def main : IO UInt32 := do
  let found ← settingNames.filterMapM fun name => do
    let name := settingLead ++ name
    return (← IO.getEnv name).map (name, ·)
  let p := Program.run none fun name => (found.find? (·.1 == name)).map (·.2)
  (← IO.getStderr).putStr p.errorOutput
  if let some reason := p.logged then
    IO.println ("ERROR " ++ Program.title ++ ": " ++ reason)
  return UInt32.ofNat p.exitCode
