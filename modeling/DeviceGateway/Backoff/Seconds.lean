import DeviceGateway.Duration

/-! Durations as doubles of seconds and back. Back, a double stands for the nearest nanosecond, an
exact half for the even one; a double below zero or beyond the longest duration stands for none. -/

namespace DeviceGateway

def roundDiv (num den : Nat) : Nat :=
  if 2 * (num % den) < den then num / den
  else if den < 2 * (num % den) then num / den + 1
  else num / den + num / den % 2

namespace Duration

def seconds (d : Duration) : Float :=
  (UInt64.ofNat (d.nanos / second)).toFloat +
    (UInt64.ofNat (d.nanos % second)).toFloat / 1000000000.0

/-- The nanoseconds that `significand * 2 ^ (exponent - 1075)` seconds are nearest to. -/
def nearestNanos (significand exponent : Nat) : Nat :=
  if 1075 ≤ exponent then (significand <<< (exponent - 1075)) * second
  else roundDiv (significand * second) (1 <<< (1075 - exponent))

def hiddenBit : Nat := 1 <<< 52

def ofSeconds? (x : Float) : Option Duration :=
  let bits := x.toBits.toNat
  let exponent := bits / hiddenBit % 2048
  let significand := bits % hiddenBit + if exponent = 0 then 0 else hiddenBit
  let nanos := nearestNanos significand (max exponent 1)
  if exponent = 2047 then none
  else if UInt64.size / 2 ≤ bits ∧ significand ≠ 0 then none
  else if h : nanos < UInt64.size * second then some ⟨nanos, h⟩
  else none

end Duration

theorem two_mul_roundDiv_le (num : Nat) {den : Nat} (h : 0 < den) :
    2 * (roundDiv num den * den) ≤ 2 * num + den ∧
      2 * num ≤ 2 * (roundDiv num den * den) + den := by
  have hd : den * (num / den) + num % den = num := Nat.div_add_mod num den
  have hm : num % den < den := Nat.mod_lt num h
  simp only [roundDiv]
  split
  · rw [Nat.mul_comm (num / den) den]; omega
  · split
    · rw [Nat.add_mul, Nat.mul_comm (num / den) den]; omega
    · rw [Nat.add_mul, Nat.mul_comm (num / den) den]
      rcases Nat.mod_two_eq_zero_or_one (num / den) with h2 | h2 <;> rw [h2] <;> omega

end DeviceGateway
