import DeviceGateway.Error

/-! Addresses to listen on: a host and, after the last colon, a port of 16 bits. Whether the host
exists is not looked into. -/

namespace DeviceGateway.Address

def check (address : String) : Except LinkError Unit :=
  match Text.cutAtLast ':' address.toList with
  | none => .error (.bind address "invalid socket address")
  | some (_, port) =>
    match Text.natural (UInt16.size - 1) port with
    | .ok _ => .ok ()
    | .error _ => .error (.bind address "invalid port value")

def host (address : String) : String :=
  match Text.cutAtLast ':' address.toList with
  | none => address
  | some (host, _) => String.ofList host

end DeviceGateway.Address
