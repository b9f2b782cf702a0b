import DeviceGateway.Json.Basic
import DeviceGateway.Text.Natural

/-! JSON numbers. A whole number is one written with digits only. Any other number matters only by
its size: it is read into a significand of 64 bits and a power of ten, and their product in doubles
must be finite. -/

namespace DeviceGateway.Json

def Value.ofNat (n : Nat) : Value := .number ((Nat.toDigits 10 n).map Char.toUInt8)

def Value.natural? (limit : Nat) : Value → Option Nat
  | .number raw =>
    match Text.naturalFrom limit 0 (raw.map Char.ofUInt8) with
    | .ok n => some n
    | .error _ => none
  | _ => none

/-- Digits taken into the significand while it fits 64 bits: the significand, how many digits were
taken and how many were left. -/
def absorb (significand taken : Nat) : List Char → Nat × Nat × Nat
  | [] => (significand, taken, 0)
  | c :: rest =>
    let next := significand * 10 + (c.toNat - '0'.toNat)
    if next < UInt64.size then absorb next (taken + 1) rest else (significand, taken, rest.length + 1)

def isFiniteProduct (significand : Nat) (exponent : Int) : Bool :=
  if exponent ≤ 0 then true
  else if exponent ≤ 308 then
    ((UInt64.ofNat significand).toFloat * Float.ofScientific 1 false exponent.toNat).isFinite
  else significand = 0

def maxExponent : Nat := UInt32.size / 2 - 1

/-- Whether a number with these digits before and after the point and this power of ten is finite.
A power too large for 31 bits is so only in front of zero. -/
def isFiniteDecimal (whole fraction : List Char) (negative : Bool) (power : Nat) : Bool :=
  let (significand, _, left) := absorb 0 0 whole
  let (significand, taken, _) := absorb significand 0 fraction
  if maxExponent < power then negative || significand = 0
  else if negative then isFiniteProduct significand ((left : Int) - taken - power)
  else isFiniteProduct significand ((left : Int) - taken + power)

def isDigit (c : Char) : Bool := '0' ≤ c && c ≤ '9'

def digitsValue (s : List Char) : Nat := s.foldl (fun n c => n * 10 + (c.toNat - '0'.toNat)) 0

def powerOf : List Char → Bool × Nat
  | [] => (false, 0)
  | _ :: '-' :: digits => (true, digitsValue digits)
  | _ :: '+' :: digits => (false, digitsValue digits)
  | _ :: digits => (false, digitsValue digits)

def isFiniteNumber (raw : Bytes) : Bool :=
  let s := (raw.map Char.ofUInt8).dropWhile (· == '-')
  let whole := s.takeWhile isDigit
  match s.dropWhile isDigit with
  | '.' :: rest =>
    let (negative, power) := powerOf (rest.dropWhile isDigit)
    isFiniteDecimal whole (rest.takeWhile isDigit) negative power
  | rest =>
    let (negative, power) := powerOf rest
    isFiniteDecimal whole [] negative power

end DeviceGateway.Json
