import DeviceGateway.Json.Reader
import DeviceGateway.Json.Record

/-! The bytes of a value on the wire: compact JSON out, any JSON for the same value in. -/

namespace DeviceGateway

open Json (Value)

class Wire (α : Type) where
  toJson : α → Value
  ofJson? : Value → Option α
  /-- How deep the JSON may nest; nothing stands for any depth. -/
  maxDepth : Option Nat := none

namespace Wire

variable {α : Type} [Wire α]

def encode (a : α) : Bytes := (toJson a).render

def decode? (bytes : Bytes) : Option α := (Json.read (maxDepth α) bytes).bind ofJson?

instance : Wire String where
  toJson := Value.ofText
  ofJson? := Value.text?

instance : Wire UInt8 where
  toJson b := .ofNat b.toNat
  ofJson? v := (v.natural? (UInt8.size - 1)).map UInt8.ofNat

instance : Wire UInt16 where
  toJson n := .ofNat n.toNat
  ofJson? v := (v.natural? (UInt16.size - 1)).map UInt16.ofNat

instance : Wire UInt64 where
  toJson n := .ofNat n.toNat
  ofJson? v := (v.natural? (UInt64.size - 1)).map UInt64.ofNat

instance : Wire (List α) where
  toJson items := .array (items.map toJson)
  ofJson? v := v.list? ofJson?

end Wire

end DeviceGateway
