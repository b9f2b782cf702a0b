import DeviceGateway.Channel
import DeviceGateway.Text.Pieces
import DeviceGateway.Text.Quoted

/-! Topics of devices and the subjects they stand for on the bus. A topic is
`channels/<id>/messages` with an optional subtopic and an optional query; a subject is
`<lead>.<id>` with an optional subtopic. Reading a topic drops empty levels, so each place has one
subtopic, and a topic that cannot be read is refused as a whole. -/

namespace DeviceGateway

inductive TopicError
  | noRoute (topic : String)
  | badChannel (id : String)
  | badSubtopic (raw : String)
  deriving DecidableEq, Repr

def TopicError.message : TopicError → String
  | .noRoute topic => "invalid topic: " ++ topic
  | .badChannel id => "invalid channel identifier: " ++ Text.quoted id
  | .badSubtopic raw => "malformed subtopic: " ++ raw

def ChannelId.parse (s : String) : Except TopicError ChannelId :=
  match ChannelId.ofString? s with
  | some id => .ok id
  | none => .error (.badChannel s)

namespace Topic

def path (topic : List Char) : List Char :=
  match topic.takeWhile (· != '?') with
  | '/' :: rest => rest
  | s => s

/-- The channel of a path and what follows `messages/`, nothing standing for nothing. -/
def frame (topic : String) : Except TopicError (ChannelId × List Char) :=
  match Text.afterLead "channels/".toList (path topic.toList) with
  | none => .error (.noRoute topic)
  | some rest =>
    match Text.cutAt '/' rest with
    | none => .error (.noRoute topic)
    | some (id, rest) =>
      match ChannelId.parse (String.ofList id) with
      | .error e => .error e
      | .ok id =>
        match Text.afterLead "messages".toList rest with
        | some [] => .ok (id, [])
        | some ('/' :: raw) => .ok (id, raw)
        | _ => .error (.noRoute topic)

def isWild (c : Char) : Bool := c == '+' || c == '#' || c == '*' || c == '>'

def plainToken (_ : Bool) (level : List Char) : Option (List Char) :=
  if level.any isWild then none else some level

/-- A level of a filter. One wildcard stands for a level; the other, only as the `last` level, for
all that remain. -/
def filterToken (last : Bool) (level : List Char) : Option (List Char) :=
  if level = ['+'] ∨ level = ['*'] then some ['*']
  else if last ∧ (level = ['#'] ∨ level = ['>']) then some ['>']
  else plainToken last level

def tokens (token : Bool → List Char → Option (List Char)) :
    List (List Char) → Option (List (List Char))
  | [] => some []
  | level :: rest =>
    match token rest.isEmpty level, tokens token rest with
    | some t, some ts => some (t :: ts)
    | _, _ => none

/-- The levels of a raw subtopic: slashes and dots both separate, and empty levels are dropped. -/
def levels (raw : List Char) : List (List Char) :=
  (Text.pieces (fun c => c == '/' || c == '.') raw).filter (!·.isEmpty)

def read (token : Bool → List Char → Option (List Char)) (topic : String) :
    Except TopicError Channel :=
  match frame topic with
  | .error e => .error e
  | .ok (id, raw) =>
    match tokens token (levels raw) with
    | none => .error (.badSubtopic (String.ofList raw))
    | some ts => .ok ⟨id, String.ofList (Text.join '.' ts)⟩

def parse (topic : String) : Except TopicError Channel := read plainToken topic

def parseFilter (topic : String) : Except TopicError Channel := read filterToken topic

def subject (lead : String) (c : Channel) : String := lead ++ "." ++ c.name

def allChannels (lead : String) : String := lead ++ ".>"

def base (id : ChannelId) : String := "channels/" ++ id.text ++ "/messages"

def edgeTopic (id : ChannelId) (subtopic : String) : String :=
  if subtopic = "" then base id
  else base id ++ "/" ++ String.ofList (subtopic.toList.map fun c => if c = '.' then '/' else c)

def edgeLevel (token : List Char) : List Char :=
  if token = ['*'] then ['+'] else if token = ['>'] then ['#'] else token

/-- The filter of a channel as devices see it: the one spelling of all filters for that channel. -/
def edgeFilter (c : Channel) : String :=
  base c.id ++ String.ofList
    (((Text.pieces (· == '.') c.subtopic.toList).filter (!·.isEmpty)).flatMap
      fun token => '/' :: edgeLevel token)

theorem ne_nil_of_mem_levels {raw level : List Char} (h : level ∈ levels raw) : level ≠ [] := by
  have := (List.mem_filter.1 h).2
  rintro rfl
  simp at this

end Topic

end DeviceGateway
