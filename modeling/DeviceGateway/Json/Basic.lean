import DeviceGateway.Text.Utf8

/-! JSON values as they are written. Text and numbers keep the bytes they were written with, so a
value that nobody asks for is never decoded; members keep their order and may repeat a key. -/

namespace DeviceGateway.Json

inductive Value
  | null
  | bool (b : Bool)
  | number (raw : Bytes)
  /-- The bytes between the quotes, escapes included. -/
  | string (raw : Bytes)
  | array (items : List Value)
  | object (members : List (Bytes × Value))

def ascii (s : String) : Bytes := s.toList.map Char.toUInt8

def pushQuoted (out raw : Bytes) : Bytes := 0x22 :: raw.reverseAux (0x22 :: out)

mutual

def Value.push (out : Bytes) : Value → Bytes
  | .null => (ascii "null").reverseAux out
  | .bool true => (ascii "true").reverseAux out
  | .bool false => (ascii "false").reverseAux out
  | .number raw => raw.reverseAux out
  | .string raw => pushQuoted out raw
  | .array items => pushItems (0x5B :: out) items
  | .object members => pushMembers (0x7B :: out) members

def pushItems (out : Bytes) : List Value → Bytes
  | [] => 0x5D :: out
  | [v] => 0x5D :: v.push out
  | v :: w :: rest => pushItems (0x2C :: v.push out) (w :: rest)

def pushMembers (out : Bytes) : List (Bytes × Value) → Bytes
  | [] => 0x7D :: out
  | [(key, v)] => 0x7D :: v.push (0x3A :: pushQuoted out key)
  | (key, v) :: m :: rest => pushMembers (0x2C :: v.push (0x3A :: pushQuoted out key)) (m :: rest)

end

def Value.render (v : Value) : Bytes := (v.push []).reverse

mutual

theorem Value.push_append (out more : Bytes) :
    (v : Value) → v.push (out ++ more) = v.push out ++ more
  | .null => by simp [Value.push]
  | .bool true => by simp [Value.push]
  | .bool false => by simp [Value.push]
  | .number raw => by simp [Value.push]
  | .string raw => by simp [Value.push, pushQuoted]
  | .array items => by simp only [Value.push]; exact pushItems_append (0x5B :: out) more items
  | .object ms => by simp only [Value.push]; exact pushMembers_append (0x7B :: out) more ms

theorem pushItems_append (out more : Bytes) :
    (items : List Value) → pushItems (out ++ more) items = pushItems out items ++ more
  | [] => by simp [pushItems]
  | [v] => by simp only [pushItems, Value.push_append out more v, List.cons_append]
  | v :: w :: rest => by
    simp only [pushItems, Value.push_append out more v]
    exact pushItems_append (0x2C :: v.push out) more (w :: rest)

theorem pushMembers_append (out more : Bytes) :
    (ms : List (Bytes × Value)) → pushMembers (out ++ more) ms = pushMembers out ms ++ more
  | [] => by simp [pushMembers]
  | [(key, v)] => by
    have h : 0x3A :: pushQuoted (out ++ more) key = (0x3A :: pushQuoted out key) ++ more := by
      simp [pushQuoted]
    rw [pushMembers, h, Value.push_append _ more v]
    rfl
  | (key, v) :: m :: rest => by
    have h : 0x3A :: pushQuoted (out ++ more) key = (0x3A :: pushQuoted out key) ++ more := by
      simp [pushQuoted]
    rw [pushMembers, h, Value.push_append _ more v]
    exact pushMembers_append (0x2C :: v.push (0x3A :: pushQuoted out key)) more (m :: rest)

end

theorem Value.push_eq_render (out : Bytes) (v : Value) : v.push out = v.render.reverse ++ out := by
  simpa [Value.render] using v.push_append [] out

end DeviceGateway.Json
