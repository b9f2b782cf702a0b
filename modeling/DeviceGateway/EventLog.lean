import DeviceGateway.Wire.Record

/-! The event log: one event a line, in the order in which they were recorded. A line is the JSON
of its event, which never holds a line end, so lines and events correspond. -/

namespace DeviceGateway

def Event.line (e : Event) : Bytes := Wire.encode e ++ [0x0A]

def eventLog (events : List Event) : Bytes := events.flatMap Event.line

end DeviceGateway
