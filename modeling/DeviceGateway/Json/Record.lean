import DeviceGateway.Json.Text
import DeviceGateway.Json.Number

/-! Records in JSON. An object names its fields, in any order; unknown fields are passed over and no
known field may come twice. An array lists the fields in their order and may stop early. -/

namespace DeviceGateway.Json

def namedMembers? (members : List (Bytes × Value)) : Option (List (String × Value)) :=
  members.mapM fun (key, v) => (textOf? key).map (·, v)

def member? (members : List (String × Value)) (name : String) : Option (Option Value) :=
  match members.filter (·.1 == name) with
  | [] => some none
  | [(_, v)] => some (some v)
  | _ => none

def namedFields? (names : List String) (members : List (String × Value)) :
    Option (List (Option Value)) :=
  names.mapM (member? members)

def listedFields? (names : List String) (items : List Value) : Option (List (Option Value)) :=
  if items.length ≤ names.length then
    some (items.map some ++ List.replicate (names.length - items.length) none)
  else none

def Value.fields? (names : List String) : Value → Option (List (Option Value))
  | .object members => (namedMembers? members).bind (namedFields? names)
  | .array items => listedFields? names items
  | _ => none

def orElse? {α : Type} (fallback : α) (ofJson? : Value → Option α) : Option Value → Option α
  | none => some fallback
  | some v => ofJson? v

def optional? {α : Type} (ofJson? : Value → Option α) : Option Value → Option (Option α)
  | none => some none
  | some .null => some none
  | some v => (ofJson? v).map some

/-- The name of a case without contents: the bare name, or an object with the name as its only key
and null as its value. -/
def Value.caseName? : Value → Option String
  | .string raw => textOf? raw
  | .object [(key, .null)] => textOf? key
  | _ => none

def Value.list? {α : Type} (ofJson? : Value → Option α) : Value → Option (List α)
  | .array items => items.mapM ofJson?
  | _ => none

def record (members : List (String × Value)) : Value :=
  .object (members.map fun (name, v) => (Text.utf8 (String.ofList (escape name.toList)), v))

mutual

def Value.isSound : Value → Bool
  | .null | .bool _ => true
  | .number raw => isFiniteNumber raw
  | .string raw => (textOf? raw).isSome
  | .array items => areSound items
  | .object members => areSoundMembers members

def areSound : List Value → Bool
  | [] => true
  | v :: rest => v.isSound && areSound rest

def areSoundMembers : List (Bytes × Value) → Bool
  | [] => true
  | (key, v) :: rest => (textOf? key).isSome && v.isSound && areSoundMembers rest

end

end DeviceGateway.Json
