/-! The names in use at the gateway: clients, channels, and the device protocols. A channel
identifier is never empty and holds letters, digits, `_` and `-` only, so it can stand as one level
of a topic and as one token of a subject. -/

namespace DeviceGateway

def isIdentifierChar (c : Char) : Bool :=
  ('a' ≤ c && c ≤ 'z') || ('A' ≤ c && c ≤ 'Z') || ('0' ≤ c && c ≤ '9') || c == '_' || c == '-'

def isIdentifier (s : List Char) : Bool := !s.isEmpty && s.all isIdentifierChar

structure ChannelId where
  text : String
  valid : isIdentifier text.toList = true
  deriving DecidableEq

def ChannelId.ofString? (s : String) : Option ChannelId :=
  if h : isIdentifier s.toList = true then some ⟨s, h⟩ else none

structure ClientId where
  text : String
  deriving DecidableEq, Repr

inductive Protocol
  | mqtt
  | ws
  | coap
  deriving DecidableEq, Repr

def Protocol.name : Protocol → String
  | .mqtt => "mqtt"
  | .ws => "ws"
  | .coap => "coap"

/-- A channel together with a place below it: tokens with a dot between neighbours, or nothing for
the channel itself. -/
structure Channel where
  id : ChannelId
  subtopic : String
  deriving DecidableEq

def Channel.name (c : Channel) : String :=
  if c.subtopic = "" then c.id.text else c.id.text ++ "." ++ c.subtopic

theorem ChannelId.ofString?_text (id : ChannelId) : ofString? id.text = some id := by
  simp [ofString?, id.valid]

theorem ChannelId.ofString?_eq_some_iff {s : String} {id : ChannelId} :
    ofString? s = some id ↔ id.text = s := by
  constructor
  · intro h
    simp only [ofString?] at h
    split at h
    · cases h; rfl
    · cases h
  · rintro rfl
    exact id.ofString?_text

theorem ChannelId.ofString?_eq_none_iff {s : String} :
    ofString? s = none ↔ isIdentifier s.toList = false := by
  simp [ofString?]

end DeviceGateway
