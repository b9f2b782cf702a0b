import DeviceGateway.Backoff.Policy
import DeviceGateway.Proofs.Double.Arithmetic

/-!
# Durations as doubles

A duration in seconds is a double without a sign, and one that may be larger than the duration:
close to the longest one it is rounded up to `2 ^ 64` seconds, which no duration has. A double gives
a duration exactly when it lies below that. On the way through doubles a duration that comes out
below another in seconds does not come back above it.
-/

namespace DeviceGateway

open Double (bits size place unit power2 infinite Shape Rounds Nearest)

namespace Duration

variable (d : Duration)

def whole : Nat := d.nanos / second

def rest : Nat := d.nanos % second

theorem rest_lt : d.rest < second := Nat.mod_lt _ (by decide)

theorem whole_lt : d.whole < UInt64.size := Nat.div_lt_of_lt_mul (Nat.mul_comm _ _ ▸ d.nanos_lt)

structure Halves (s f : Nat) : Prop where
  whole : Nearest (d.whole * unit) s
  rest : Nearest (d.rest * unit / second) f

theorem bits_billion : bits 1000000000.0 < infinite ∧ size (bits 1000000000.0) = second * unit := by
  have hbits : bits 1000000000.0 = place 1051 (second * 2 ^ 23) := by decide
  have hshape : Shape 1051 (second * 2 ^ 23) := ⟨by decide, .inl (by decide)⟩
  refine ⟨hbits ▸ by decide, ?_⟩
  rw [hbits, hshape.size, Double.unit_eq (k := 1051) (by decide), Nat.mul_assoc]

theorem bits_toFloat_le (n : UInt64) : bits n.toFloat ≤ power2 64 := by
  refine (Double.rounds_toFloat n).le ?_
  rw [Double.size_power2]
  have hn : n.toNat ≤ 2 ^ 64 := Nat.le_of_lt n.toNat_lt
  exact_mod_cast Nat.mul_le_mul_right unit hn

theorem bits_rest (n : UInt64) (hn : n.toNat < second) :
    Rounds (n.toNat * unit / second) (n.toFloat / 1000000000.0) := by
  obtain ⟨hbillion, hsize⟩ := bits_billion
  have hfinite : bits n.toFloat < infinite :=
    Nat.lt_of_le_of_lt (bits_toFloat_le n) (by decide)
  obtain ⟨b, hb⟩ := Double.exists_size_whole (Nat.lt_trans hn (by decide))
  have hexact : size (bits n.toFloat) = n.toNat * unit := by
    have hnear := (Double.rounds_toFloat n).nearest hfinite
    rw [← Nat.cast_mul, ← hb] at hnear
    rw [hnear.eq_of_size, hb]
  have hdiv := Double.rounds_div hfinite hbillion (by decide)
  have hunit : (unit : ℚ) ≠ 0 := Nat.cast_ne_zero.2 Double.unit_pos.ne'
  rw [hexact, hsize, Nat.cast_mul, Nat.cast_mul, mul_div_mul_right _ _ hunit] at hdiv
  exact hdiv

theorem rest_le {n : Nat} (hn : n < second) :
    (n * unit / second : ℚ) ≤ size (place 1021 (2 ^ 53 - 1)) := by
  have hshape : Shape 1021 (2 ^ 53 - 1) := ⟨by decide, .inl (by decide)⟩
  have hunit := Double.unit_eq (k := 1021) (by decide)
  have hsize := hshape.size
  -- The power of two stands on both sides and is never worked out.
  generalize 2 ^ 1021 = p at hunit hsize
  have hbelow : n * (2 ^ 53 * p) ≤ (2 ^ 53 - 1) * p * second := by
    have hscaled : n * 2 ^ 53 ≤ (2 ^ 53 - 1) * second := by
      simp only [second] at hn ⊢
      omega
    calc n * (2 ^ 53 * p) = n * 2 ^ 53 * p := (Nat.mul_assoc _ _ _).symm
      _ ≤ (2 ^ 53 - 1) * second * p := Nat.mul_le_mul_right p hscaled
      _ = (2 ^ 53 - 1) * p * second := Nat.mul_right_comm _ _ _
  rw [hunit, hsize, div_le_iff₀ (by norm_num)]
  exact_mod_cast hbelow

theorem exists_halves : ∃ s f, d.Halves s f ∧ Rounds (size s + size f) d.seconds := by
  have hwhole : (UInt64.ofNat (d.nanos / second)).toNat = d.whole :=
    UInt64.toNat_ofNat_of_lt' d.whole_lt
  have hrest : (UInt64.ofNat (d.nanos % second)).toNat = d.rest :=
    UInt64.toNat_ofNat_of_lt' (Nat.lt_trans d.rest_lt (by decide))
  have hs : bits (UInt64.ofNat (d.nanos / second)).toFloat < infinite :=
    Nat.lt_of_le_of_lt (bits_toFloat_le _) (by decide)
  have hrounds := bits_rest (UInt64.ofNat (d.nanos % second)) (hrest ▸ d.rest_lt)
  have hf : bits ((UInt64.ofNat (d.nanos % second)).toFloat / 1000000000.0) < infinite :=
    Nat.lt_of_le_of_lt (hrounds.le (rest_le (hrest ▸ d.rest_lt))) (by decide)
  refine ⟨_, _, ⟨?_, ?_⟩, Double.rounds_add hs hf⟩
  · rw [← hwhole]
    exact (Double.rounds_toFloat _).nearest hs
  · rw [← hrest]
    exact hrounds.nearest hf

variable {d} {s f a : Nat}

theorem Halves.size_whole (h : d.Halves s f) (hlt : d.whole < 2 ^ 53) :
    size s = d.whole * unit := by
  obtain ⟨b, hb⟩ := Double.exists_size_whole hlt
  have hs := h.whole
  rw [← Nat.cast_mul, ← hb] at hs
  rw [hs.eq_of_size, hb]

theorem Halves.size_rest_lt (h : d.Halves s f) : size f < unit := by
  have hle := h.rest.le (rest_le d.rest_lt)
  calc size f ≤ size (place 1021 (2 ^ 53 - 1)) := Double.size_le.2 hle
    _ < size (power2 0) := Double.size_lt.2 (by decide)
    _ = unit := Double.size_power2_zero

theorem Halves.rest_le_of (h : d.Halves s f) (hle : d.rest * unit ≤ size a * second) :
    f ≤ a := by
  refine h.rest.le ?_
  rw [div_le_iff₀ (by norm_num), ← Nat.cast_mul, ← Nat.cast_mul, Nat.cast_le]
  exact hle

theorem Halves.sum_le (h : d.Halves s f) (hlt : s < a) (ha : power2 53 ≤ a) :
    size s + size f ≤ size a := by
  have hf := h.size_rest_lt
  rcases Nat.lt_or_ge s (power2 53) with hs | hs
  · have hwhole : d.whole < 2 ^ 53 := by
      by_contra hge
      refine Nat.not_le.2 hs (h.whole.ge ?_)
      rw [Double.size_power2, ← Nat.cast_mul, Nat.cast_le]
      exact Nat.mul_le_mul_right unit (Nat.not_lt.1 hge)
    have hnext := Nat.mul_le_mul_right unit (Nat.succ_le_of_lt hwhole)
    have hsize := Double.size_le.2 ha
    rw [Double.size_power2] at hsize
    rw [Nat.succ_mul] at hnext
    rw [h.size_whole hwhole]
    omega
  · have hgap := Double.size_add_le_size_succ hs
    have hsize := Double.size_le.2 (show s + 1 ≤ a from hlt)
    omega

theorem bits_seconds_le_of_nanos (h : (2 * d.nanos + 1) * unit ≤ 2 * size a * second) :
    bits d.seconds ≤ a := by
  obtain ⟨s, f, hhalves, hsum⟩ := d.exists_halves
  have hnanos : d.nanos = second * d.whole + d.rest := (Nat.div_add_mod d.nanos second).symm
  have hrest : 2 * (d.whole * unit) * second + (2 * d.rest + 1) * unit ≤ 2 * size a * second := by
    rw [hnanos] at h
    linarith
  have hwhole : d.whole * unit ≤ size a := by
    have hscaled : 2 * (d.whole * unit) * second ≤ 2 * size a * second :=
      (Nat.le_add_right _ _).trans hrest
    have hdoubled : 2 * (d.whole * unit) ≤ 2 * size a :=
      Nat.le_of_mul_le_mul_right hscaled (Nat.zero_lt_of_lt d.rest_lt)
    omega
  rcases Nat.lt_or_ge a (power2 53) with ha | ha
  · -- The whole seconds are exact, and so is what is left of the double without them.
    have hlt : d.whole < 2 ^ 53 := by
      have hsize := Nat.lt_of_le_of_lt hwhole (Double.size_lt.2 ha)
      rw [Double.size_power2] at hsize
      exact Nat.lt_of_mul_lt_mul_right hsize
    obtain ⟨left, hleft⟩ := Double.exists_size_sub ha hwhole
    have hf : f ≤ left := hhalves.rest_le_of (by
      rw [← hleft] at hrest
      linarith)
    refine hsum.le ?_
    rw [← Nat.cast_add, Nat.cast_le, hhalves.size_whole hlt, ← hleft]
    exact Nat.add_le_add_left (Double.size_le.2 hf) _
  · have hs : s ≤ a := hhalves.whole.le (by
      rw [← Nat.cast_mul, Nat.cast_le]
      exact hwhole)
    rcases Nat.lt_or_eq_of_le hs with hlt | rfl
    · refine hsum.le ?_
      rw [← Nat.cast_add, Nat.cast_le]
      exact hhalves.sum_le hlt ha
    · -- The rest of a second is less than half the way to the next double.
      have hgap := Double.size_add_le_size_succ ha
      have hf := hhalves.size_rest_lt
      refine hsum.le_of_lt_half ?_
      exact_mod_cast (by omega : 2 * (size s + size f) < size s + size (s + 1))

theorem bits_seconds_le_power2 {j : Nat} (h : d.nanos < 2 ^ j * second) :
    bits d.seconds ≤ power2 j := by
  refine bits_seconds_le_of_nanos ?_
  have hnanos : 2 * d.nanos + 1 ≤ 2 * (2 ^ j * second) := by omega
  calc (2 * d.nanos + 1) * unit ≤ 2 * (2 ^ j * second) * unit := Nat.mul_le_mul_right unit hnanos
    _ = 2 * size (power2 j) * second := by
      rw [Double.size_power2]
      ring

theorem bits_seconds_le (d : Duration) : bits d.seconds ≤ power2 64 :=
  bits_seconds_le_power2 d.nanos_lt

theorem nearestNanos_near (k m : Nat) :
    2 * nearestNanos m (k + 1) * unit ≤ 2 * (m * 2 ^ k) * second + unit ∧
      2 * (m * 2 ^ k) * second ≤ 2 * nearestNanos m (k + 1) * unit + unit := by
  unfold nearestNanos
  split
  · obtain ⟨j, rfl⟩ : ∃ j, k = 1074 + j := ⟨k - 1074, by omega⟩
    have hshift : 1074 + j + 1 - 1075 = j := by omega
    have hexact : 2 * ((m <<< (1074 + j + 1 - 1075)) * second) * unit =
        2 * (m * 2 ^ (1074 + j)) * second := by
      rw [hshift, Nat.shiftLeft_eq, ← Double.unit_mul]
      ring
    rw [hexact]
    exact ⟨Nat.le_add_right _ _, Nat.le_add_right _ _⟩
  · have hunit := Double.unit_eq (k := k) (by omega)
    have hshift : 1075 - (k + 1) = 1074 - k := by omega
    have hnear := two_mul_roundDiv_le (m * second) (Nat.two_pow_pos (1074 - k))
    rw [hshift, Nat.shiftLeft_eq, Nat.one_mul, hunit]
    generalize roundDiv (m * second) (2 ^ (1074 - k)) = n at hnear ⊢
    generalize 2 ^ (1074 - k) = den at hnear ⊢
    have hbelow := Nat.mul_le_mul_right (2 ^ k) hnear.1
    have habove := Nat.mul_le_mul_right (2 ^ k) hnear.2
    exact ⟨by linarith, by linarith⟩

variable {x : Float}

theorem ofSeconds?_place {k m : Nat} (h : Shape k m) (hx : bits x = place k m)
    (hlt : bits x < infinite) :
    ofSeconds? x = if hn : nearestNanos m (k + 1) < UInt64.size * second then some ⟨_, hn⟩
      else none := by
  have hm := h.lt
  have hfull := h.full
  have hbits : x.toBits.toNat = k * 2 ^ 52 + m := hx
  have hhidden : hiddenBit = 2 ^ 52 := rfl
  have hwords : UInt64.size / 2 = 2 ^ 63 := rfl
  rw [hx] at hlt
  simp only [place, infinite] at hlt
  have hexponent : max (x.toBits.toNat / hiddenBit % 2048) 1 = k + 1 := by
    rw [hbits, hhidden]
    omega
  have hsignificand : x.toBits.toNat % hiddenBit +
      (if x.toBits.toNat / hiddenBit % 2048 = 0 then 0 else hiddenBit) = m := by
    rw [hbits, hhidden]
    split <;> omega
  have hfinite : ¬x.toBits.toNat / hiddenBit % 2048 = 2047 := by
    rw [hbits, hhidden]
    omega
  have hsign : ¬UInt64.size / 2 ≤ x.toBits.toNat := by
    rw [hbits, hwords]
    omega
  simp only [ofSeconds?, hexponent, hsignificand, hfinite, hsign, false_and, if_false]

theorem ofSeconds?_of_infinite_le (hx : bits x < 2 ^ 63) (hge : infinite ≤ bits x) :
    ofSeconds? x = none := by
  have hexponent : x.toBits.toNat / hiddenBit % 2048 = 2047 := by
    have hhidden : hiddenBit = 2 ^ 52 := rfl
    change x.toBits.toNat < 2 ^ 63 at hx
    change 2047 * 2 ^ 52 ≤ x.toBits.toNat at hge
    rw [hhidden]
    omega
  simp only [ofSeconds?, hexponent, if_true]

theorem ofSeconds?_negativeZero (hx : bits x = 2 ^ 63) : ofSeconds? x = some zero := by
  have hbits : x.toBits.toNat = 2 ^ 63 := hx
  rw [ofSeconds?, hbits]
  rfl

theorem nanos_le_of_ofSeconds? (hx : bits x < infinite) (h : ofSeconds? x = some d) :
    2 * d.nanos * unit ≤ 2 * size (bits x) * second + unit := by
  obtain ⟨k, m, hshape, hbits⟩ := Double.exists_shape (bits x)
  rw [ofSeconds?_place hshape hbits hx] at h
  split at h
  · obtain rfl := Option.some.inj h
    rw [hbits, hshape.size]
    exact (nearestNanos_near k m).1
  · exact nomatch h

theorem nanos_le_of_bits_lt {e : Duration} (h : ofSeconds? x = some d)
    (hlt : bits x < bits e.seconds) : d.nanos ≤ e.nanos := by
  by_contra hlong
  have hfinite : bits x < infinite :=
    hlt.trans_le ((bits_seconds_le e).trans (by decide))
  have hnanos : e.nanos + 1 ≤ d.nanos := Nat.lt_of_not_le hlong
  have hnear := nanos_le_of_ofSeconds? hfinite h
  have hscaled := Nat.mul_le_mul_right unit hnanos
  refine Nat.not_le.2 hlt (bits_seconds_le_of_nanos ?_)
  linarith

theorem nanos_lt_iff {n a : Nat} (hbelow : 2 * n * unit ≤ 2 * size a * second + unit)
    (habove : 2 * size a * second ≤ 2 * n * unit + unit) :
    n < UInt64.size * second ↔ a < power2 64 := by
  have hwords : UInt64.size = 2 ^ 64 := rfl
  have hpos := Double.unit_pos
  rw [hwords]
  rw [Nat.mul_assoc 2 n] at hbelow habove
  simp only [second] at hbelow habove ⊢
  constructor
  · intro hn
    by_contra hge
    have hsize := Double.size_le.2 (Nat.not_lt.1 hge)
    have hnanos := Nat.mul_le_mul_right unit (Nat.le_sub_one_of_lt hn)
    rw [Double.size_power2] at hsize
    omega
  · intro ha
    by_contra hge
    -- Below a power of two this large there is room for the half of a nanosecond.
    have hsize := Double.size_le.2 (Nat.le_sub_one_of_lt ha)
    have hgap : size (power2 64 - 1) + 2 * unit ≤ size (power2 64) :=
      Double.size_add_le_size_succ (by decide)
    have hnanos := Nat.mul_le_mul_right unit (Nat.not_lt.1 hge)
    rw [Double.size_power2] at hgap
    omega

theorem ofSeconds?_isSome_iff (hx : bits x < 2 ^ 63) :
    (ofSeconds? x).isSome = true ↔ bits x < power2 64 := by
  rcases Nat.lt_or_ge (bits x) infinite with hlt | hge
  · obtain ⟨k, m, hshape, hbits⟩ := Double.exists_shape (bits x)
    have hnear := nearestNanos_near k m
    rw [← hshape.size, ← hbits] at hnear
    rw [ofSeconds?_place hshape hbits hlt, ← nanos_lt_iff hnear.1 hnear.2]
    split
    · rename_i hn
      exact iff_of_true rfl hn
    · rename_i hn
      exact iff_of_false Bool.false_ne_true hn
  · have hend : power2 64 ≤ infinite := by decide
    rw [ofSeconds?_of_infinite_le hx hge]
    exact iff_of_false Bool.false_ne_true (Nat.not_lt.2 (hend.trans hge))

end Duration

end DeviceGateway
