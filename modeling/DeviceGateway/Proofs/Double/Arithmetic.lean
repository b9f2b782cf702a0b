import DeviceGateway.Proofs.Double.Rounding

/-!
# Arithmetic on doubles without a sign

Each operation gives a double nearest to the exact result, or infinity where that lies past the
largest double.
-/

namespace DeviceGateway.Double

open Float.Model (Format UnpackedFloat totalExponent)
open Float.Model.UnpackedFloat (Sign Accuracy ExtendedMantissa roundWithAccuracy decreaseExponent
  accuracyOfFraction)

theorem zpow_unit : (2 : ℚ) ^ ((1074 : Nat) : Int) = unit := by
  rw [zpow_natCast, unit, Nat.cast_pow, Nat.cast_ofNat]

def Rounds (r : ℚ) (x : Float) : Prop := ∃ b, Nearest r b ∧ bits x = min b infinite

variable {x y : Float}

theorem rounds_zero : Rounds 0 (ofUnpacked (.zero .positive)) :=
  ⟨0, by simpa [size] using nearest_size 0, rfl⟩

theorem rounds_finite {k m : Nat} (h : Shape k m) (hm : 0 < m) :
    Rounds (size (place k m)) (ofUnpacked (.finite .positive m ((k : Int) - 1074) hm)) :=
  ⟨place k m, nearest_size _, by rw [bits_finite h, signBit, Nat.zero_add]⟩

theorem rounds_normalize {m : Int} (hm : 0 ≤ m) (e : Int) :
    Rounds (m * 2 ^ (e + 1074))
      (ofUnpacked (UnpackedFloat.normalize Format.binary64 m e .positive)) := by
  rcases Int.lt_or_eq_of_le hm with hpos | rfl
  · obtain ⟨n, rfl⟩ := Int.eq_ofNat_of_zero_le hm
    rw [UnpackedFloat.normalize, Int.compare_eq_gt.2 hpos, Int.toNat_natCast]
    obtain ⟨b, hb, hbits⟩ := bits_round .positive (Int.natCast_pos.1 hpos) e
    exact ⟨b, by exact_mod_cast hb, by rw [hbits, signBit, Nat.zero_add]⟩
  · simpa [UnpackedFloat.normalize] using rounds_zero

theorem decreaseExponent_value {m : Nat} {e t : Int} (h : t ≤ e) :
    ((decreaseExponent m e t).1 : ℚ) * 2 ^ (t + 1074) = m * 2 ^ (e + 1074) := by
  rw [decreaseExponent, Nat.shiftLeft_eq, Nat.cast_mul, Nat.cast_pow, Nat.cast_ofNat, mul_assoc,
    ← zpow_natCast, ← zpow_add₀ (by norm_num)]
  congr 2
  omega

theorem cast_size_place {k m : Nat} (h : Shape k m) :
    (size (place k m) : ℚ) = m * 2 ^ ((k : Int) - 1074 + 1074) := by
  rw [h.size, Int.sub_add_cancel, zpow_natCast]
  push_cast
  rfl

theorem size_zero : size 0 = 0 := rfl

theorem rounds_add (hx : bits x < infinite) (hy : bits y < infinite) :
    Rounds (size (bits x) + size (bits y)) (x + y) := by
  change Rounds _ (ofUnpacked (UnpackedFloat.add Format.binary64 (unpacked x) (unpacked y)))
  rcases (reads x).of_lt_infinite hx with ⟨hu, hzero⟩ | ⟨k, m, hm, hshape, hplace, hu⟩
  · rcases (reads y).of_lt_infinite hy with ⟨hv, hzero'⟩ | ⟨k', m', hm', hshape', hplace', hv⟩
    · rw [hu, hv, hzero, hzero', size_zero, Nat.cast_zero, add_zero]
      exact rounds_zero
    · rw [hu, hv, hzero, hplace', size_zero, Nat.cast_zero, zero_add]
      exact rounds_finite hshape' hm'
  · rcases (reads y).of_lt_infinite hy with ⟨hv, hzero'⟩ | ⟨k', m', hm', hshape', hplace', hv⟩
    · rw [hu, hv, hplace, hzero', size_zero, Nat.cast_zero, add_zero]
      exact rounds_finite hshape hm
    · rw [hu, hv, hplace, hplace', cast_size_place hshape, cast_size_place hshape']
      have hsum := rounds_normalize (m := (decreaseExponent m ((k : Int) - 1074)
        (min ((k : Int) - 1074) (k' - 1074))).1 + (decreaseExponent m' ((k' : Int) - 1074)
        (min ((k : Int) - 1074) (k' - 1074))).1) (by omega) (min ((k : Int) - 1074) (k' - 1074))
      rw [Int.cast_add, add_mul, Int.cast_natCast, Int.cast_natCast,
        decreaseExponent_value (min_le_left _ _), decreaseExponent_value (min_le_right _ _)] at hsum
      exact hsum

theorem rounds_sub (hx : bits x < infinite) (hyx : bits y ≤ bits x) :
    Rounds (size (bits x) - size (bits y)) (x - y) := by
  have hy := Nat.lt_of_le_of_lt hyx hx
  change Rounds _ (ofUnpacked (UnpackedFloat.sub Format.binary64 (unpacked x) (unpacked y)))
  rcases (reads y).of_lt_infinite hy with ⟨hv, hzero'⟩ | ⟨k', m', hm', hshape', hplace', hv⟩
  · rcases (reads x).of_lt_infinite hx with ⟨hu, hzero⟩ | ⟨k, m, hm, hshape, hplace, hu⟩
    · rw [hu, hv, hzero, hzero', sub_self]
      exact rounds_zero
    · rw [hu, hv, hplace, hzero', size_zero, Nat.cast_zero, sub_zero]
      exact rounds_finite hshape hm
  · rcases (reads x).of_lt_infinite hx with ⟨-, hzero⟩ | ⟨k, m, hm, hshape, hplace, hu⟩
    · have hpos : 0 < place k' m' := Nat.add_pos_right _ hm'
      omega
    · have hle : (size (bits y) : ℚ) ≤ size (bits x) := cast_size_le.2 hyx
      rw [hplace, hplace', cast_size_place hshape, cast_size_place hshape',
        ← decreaseExponent_value (min_le_left ((k : Int) - 1074) (k' - 1074)),
        ← decreaseExponent_value (min_le_right ((k : Int) - 1074) (k' - 1074))] at hle ⊢
      have hfewer := le_of_mul_le_mul_right hle (zpow_pos (by norm_num) _)
      rw [Nat.cast_le] at hfewer
      have hdiff := rounds_normalize (m := (decreaseExponent m ((k : Int) - 1074)
        (min ((k : Int) - 1074) (k' - 1074))).1 - (decreaseExponent m' ((k' : Int) - 1074)
        (min ((k : Int) - 1074) (k' - 1074))).1) (by omega) (min ((k : Int) - 1074) (k' - 1074))
      rw [Int.cast_sub, sub_mul, Int.cast_natCast, Int.cast_natCast] at hdiff
      rw [hu, hv]
      exact hdiff

theorem rounds_roundWithAccuracy {m : Nat} {e : Int} {a : Accuracy} {r : ℚ}
    (hr : Stands (ExtendedMantissa.ofMantissaAndAccuracy m a) r) (he : e ≤ lastPlace m e) :
    Rounds (r * 2 ^ (e + 1074)) (ofUnpacked (roundWithAccuracy Format.binary64 .positive m e a)) := by
  obtain ⟨b, hb, hbits⟩ := bits_roundWithAccuracy .positive hr he
  exact ⟨b, hb, by rw [hbits, signBit, Nat.zero_add]⟩

theorem lastPlace_mul {k m k' m' : Nat} (h : Shape k m) (h' : Shape k' m') (hm : 0 < m)
    (hm' : 0 < m') :
    (k : Int) - 1074 + (k' - 1074) ≤ lastPlace (m * m') (k - 1074 + (k' - 1074)) := by
  have hlog : 52 ≤ (m * m').log2 ∨ k = 0 ∧ k' = 0 := by
    rw [Nat.le_log2 (Nat.mul_pos hm hm').ne']
    rcases h.full with hfull | hk
    · exact .inl (hfull.trans (Nat.le_mul_of_pos_right m hm'))
    · rcases h'.full with hfull' | hk'
      · exact .inl (hfull'.trans (Nat.le_mul_of_pos_left m' hm))
      · exact .inr ⟨hk, hk'⟩
  simp only [lastPlace]
  omega

theorem rounds_mul (hx : bits x < infinite) (hy : bits y < infinite) :
    Rounds (size (bits x) * size (bits y) / unit) (x * y) := by
  change Rounds _ (ofUnpacked (UnpackedFloat.mul Format.binary64 (unpacked x) (unpacked y)))
  rcases (reads x).of_lt_infinite hx with ⟨hu, hzero⟩ | ⟨k, m, hm, hshape, hplace, hu⟩
  · rw [hu, hzero, size_zero, Nat.cast_zero, zero_mul, zero_div]
    rcases (reads y).of_lt_infinite hy with ⟨hv, -⟩ | ⟨k', m', hm', -, -, hv⟩
    · rw [hv]
      exact rounds_zero
    · rw [hv]
      exact rounds_zero
  · rcases (reads y).of_lt_infinite hy with ⟨hv, hzero'⟩ | ⟨k', m', hm', hshape', hplace', hv⟩
    · rw [hu, hv, hzero', size_zero, Nat.cast_zero, mul_zero, zero_div]
      exact rounds_zero
    · have hvalue : (size (bits x) * size (bits y) / unit : ℚ) =
          (m * m' : Nat) * 2 ^ ((k : Int) - 1074 + (k' - 1074) + 1074) := by
        have hexp : (k : Int) - 1074 + (k' - 1074) + 1074 = k + k' - (1074 : Nat) := by omega
        rw [hplace, hplace', hshape.size, hshape'.size, hexp, zpow_sub₀ (by norm_num),
          zpow_add₀ (by norm_num), zpow_natCast, zpow_natCast, zpow_unit]
        push_cast
        ring
      rw [hu, hv, hvalue]
      exact rounds_roundWithAccuracy (stands_exact _) (lastPlace_mul hshape hshape' hm hm')

theorem rounds_toFloat (n : UInt64) : Rounds (n.toNat * unit) n.toFloat := by
  have hexp : (0 : Int) + 1074 = (1074 : Nat) := rfl
  have h := rounds_normalize (Int.natCast_nonneg n.toNat) 0
  rw [Int.cast_natCast, hexp, zpow_unit] at h
  exact h

theorem stands_quotient (m n : Nat) (hn : 0 < n) :
    Stands (ExtendedMantissa.ofMantissaAndAccuracy (m / n) (accuracyOfFraction (m % n) n))
      (m / n : ℚ) := by
  have hn' : (0 : ℚ) < n := Nat.cast_pos.2 hn
  have hsplit : (m : ℚ) = n * (m / n : Nat) + (m % n : Nat) := by
    exact_mod_cast (Nat.div_add_mod m n).symm
  have hlt : ((m % n : Nat) : ℚ) < n := Nat.cast_lt.2 (Nat.mod_lt m hn)
  have hquotient : (m / n : ℚ) = (m / n : Nat) + (m % n : Nat) / n := by
    rw [hsplit]
    field_simp
  rw [accuracyOfFraction, hquotient]
  split
  · rename_i hzero
    simp [hzero, Stands, ExtendedMantissa.ofMantissaAndAccuracy]
  · rename_i hrest
    have hpos : (0 : ℚ) < (m % n : Nat) := Nat.cast_pos.2 (Nat.pos_of_ne_zero hrest)
    have hfraction : (0 : ℚ) < (m % n : Nat) / n := div_pos hpos hn'
    have hbelow : ((m % n : Nat) : ℚ) / n < 1 := (div_lt_one hn').2 hlt
    have hscaled : 2 * ((m % n : Nat) / n : ℚ) = (2 * (m % n) : Nat) / n := by
      push_cast
      ring
    rcases Nat.lt_trichotomy (2 * (m % n)) n with h | h | h
    · have hhalf : ((2 * (m % n) : Nat) : ℚ) / n < 1 := (div_lt_one hn').2 (Nat.cast_lt.2 h)
      rw [Nat.compare_eq_lt.2 h]
      simp only [Stands, ExtendedMantissa.ofMantissaAndAccuracy]
      exact ⟨by linarith, by linarith⟩
    · have hhalf : ((2 * (m % n) : Nat) : ℚ) / n = 1 := by rw [h, div_self hn'.ne']
      rw [Nat.compare_eq_eq.2 h]
      simp only [Stands, ExtendedMantissa.ofMantissaAndAccuracy]
      linarith
    · have hhalf : 1 < ((2 * (m % n) : Nat) : ℚ) / n := (one_lt_div hn').2 (Nat.cast_lt.2 h)
      rw [Nat.compare_eq_gt.2 h]
      simp only [Stands, ExtendedMantissa.ofMantissaAndAccuracy]
      exact ⟨by linarith, by linarith⟩

theorem lastPlace_quotient {m m' n : Nat} {t : Int} (hm : 0 < m) (hm' : 0 < m')
    (h : t ≤ -1074 ∨ (m'.log2 : Int) + 53 ≤ m.log2 + n) : t ≤ lastPlace ((m <<< n) / m') t := by
  simp only [lastPlace]
  rcases h with h | h
  · omega
  · have hlow : m'.log2 + 1 + 52 ≤ (m <<< n).log2 := by
      rw [log2_shiftLeft hm]
      omega
    have hshifted : 0 < m <<< n := by
      rw [Nat.shiftLeft_eq]
      exact Nat.mul_pos hm (Nat.two_pow_pos n)
    rw [Nat.le_log2 hshifted.ne', Nat.pow_add] at hlow
    have hquotient : 2 ^ 52 ≤ (m <<< n) / m' := by
      rw [Nat.le_div_iff_mul_le hm', Nat.mul_comm]
      exact (Nat.mul_le_mul_right _ (Nat.le_of_lt Nat.lt_log2_self)).trans hlow
    have hlog := (Nat.le_log2 (Nat.ne_of_gt (Nat.lt_of_lt_of_le (by decide) hquotient))).2 hquotient
    omega

theorem rounds_div (hx : bits x < infinite) (hy : bits y < infinite) (hpos : 0 < bits y) :
    Rounds (size (bits x) * unit / size (bits y)) (x / y) := by
  change Rounds _ (ofUnpacked (UnpackedFloat.div Format.binary64 (unpacked x) (unpacked y)))
  rcases (reads y).of_lt_infinite hy with ⟨-, hzero'⟩ | ⟨k', m', hm', hshape', hplace', hv⟩
  · omega
  · rcases (reads x).of_lt_infinite hx with ⟨hu, hzero⟩ | ⟨k, m, hm, hshape, hplace, hu⟩
    · rw [hu, hv, hzero, size_zero, Nat.cast_zero, zero_mul, zero_div]
      exact rounds_zero
    · rw [hu, hv]
      obtain ⟨t, ht⟩ : ∃ t, min ((k : Int) - 1074 - (k' - 1074)) (Format.binary64.targetExponent
        (totalExponent m (k - 1074) - totalExponent m' (k' - 1074))) = t := ⟨_, rfl⟩
      obtain ⟨n, hn⟩ : ∃ n, ((k : Int) - 1074 - (k' - 1074) - t).toNat = n := ⟨_, rfl⟩
      have hdiv : UnpackedFloat.div Format.binary64 (.finite .positive m ((k : Int) - 1074) hm)
          (.finite .positive m' ((k' : Int) - 1074) hm') = roundWithAccuracy Format.binary64
            .positive ((m <<< n) / m') t (accuracyOfFraction ((m <<< n) % m') m') := by
        rw [← hn, ← ht]
        rfl
      have htarget : t ≤ (k : Int) - k' ∧
          (t ≤ -1074 ∨ (m'.log2 : Int) + 53 ≤ m.log2 + n) := by
        change min _ (max ((m.log2 : Int) + 1 + (k - 1074) - (m'.log2 + 1 + (k' - 1074)) - 53)
          (-1074)) = t at ht
        omega
      have hvalue : (size (bits x) * unit / size (bits y) : ℚ) =
          (m <<< n : Nat) / m' * 2 ^ (t + 1074) := by
        have hexp : t + 1074 = (k : Int) - k' - n + (1074 : Nat) := by omega
        have hm'' : (m' : ℚ) ≠ 0 := Nat.cast_ne_zero.2 hm'.ne'
        rw [hplace, hplace', hshape.size, hshape'.size, hexp, zpow_add₀ (by norm_num),
          zpow_sub₀ (by norm_num), zpow_sub₀ (by norm_num), zpow_unit, zpow_natCast, zpow_natCast,
          zpow_natCast, Nat.shiftLeft_eq]
        generalize unit = one
        push_cast
        field_simp
      rw [hdiv, hvalue]
      exact rounds_roundWithAccuracy (stands_quotient _ _ hm') (lastPlace_quotient hm hm' htarget.2)

variable {r : ℚ} {a : Nat}

theorem Rounds.nearest (h : Rounds r x) (hx : bits x < infinite) : Nearest r (bits x) := by
  obtain ⟨b, hb, hbits⟩ := h
  have hmin : min b infinite = b := by omega
  rwa [hbits, hmin]

theorem Rounds.le (h : Rounds r x) (hr : r ≤ size a) : bits x ≤ a := by
  obtain ⟨b, hb, hbits⟩ := h
  rw [hbits]
  exact (Nat.min_le_left _ _).trans (hb.le hr)

theorem Rounds.le_of_lt_half (h : Rounds r x) (hr : 2 * r < size a + size (a + 1)) :
    bits x ≤ a := by
  obtain ⟨b, hb, hbits⟩ := h
  rw [hbits]
  exact (Nat.min_le_left _ _).trans (hb.le_of_lt_half hr)

theorem Rounds.ge (h : Rounds r x) (hr : size a ≤ r) (ha : a ≤ infinite) : a ≤ bits x := by
  obtain ⟨b, hb, hbits⟩ := h
  rw [hbits]
  exact Nat.le_min.2 ⟨hb.ge hr, ha⟩

theorem bits_mul_lt (hx : bits x < 2 ^ 63) (hy : bits y < 2 ^ 63) : bits (x * y) < 2 ^ 63 := by
  have hnone : bits (ofUnpacked .notANumber) < 2 ^ 63 := by decide
  have hend : bits (ofUnpacked (.infinity .positive)) < 2 ^ 63 := by decide
  change bits (ofUnpacked (UnpackedFloat.mul Format.binary64 (unpacked x) (unpacked y))) < _
  rcases (reads x).of_lt_signBit hx with hu | hu | hx'
  · rw [hu]
    exact hnone
  · rcases (reads y).of_lt_signBit hy with hv | hv | hy'
    · rw [hu, hv]
      exact hnone
    · rw [hu, hv]
      exact hend
    · rcases (reads y).of_lt_infinite hy' with ⟨hv, -⟩ | ⟨k, m, hm, -, -, hv⟩
      · rw [hu, hv]
        exact hnone
      · rw [hu, hv]
        exact hend
  · rcases (reads y).of_lt_signBit hy with hv | hv | hy'
    · rcases (reads x).of_lt_infinite hx' with ⟨hu, -⟩ | ⟨k, m, hm, -, -, hu⟩
      · rw [hu, hv]
        exact hnone
      · rw [hu, hv]
        exact hnone
    · rcases (reads x).of_lt_infinite hx' with ⟨hu, -⟩ | ⟨k, m, hm, -, -, hu⟩
      · rw [hu, hv]
        exact hnone
      · rw [hu, hv]
        exact hend
    · obtain ⟨b, -, hbits⟩ := rounds_mul hx' hy'
      have hle : bits (x * y) ≤ infinite := hbits ▸ Nat.min_le_right _ _
      exact Nat.lt_of_le_of_lt hle (by decide)

theorem isNaN_mul (h : y.isNaN = true) : (x * y).isNaN = true := by
  rw [isNaN_iff]
  change bits (ofUnpacked (UnpackedFloat.mul Format.binary64 (unpacked x) (unpacked y))) = _
  rw [unpacked_of_isNaN h]
  cases unpacked x <;> rfl

theorem isNaN_add (h : y.isNaN = true) : (x + y).isNaN = true := by
  rw [isNaN_iff]
  change bits (ofUnpacked (UnpackedFloat.add Format.binary64 (unpacked x) (unpacked y))) = _
  rw [unpacked_of_isNaN h]
  cases unpacked x <;> rfl

theorem bits_add_mul_zero (hx : bits x < infinite) (hpos : 0 < bits x) (hy : (y == 0.0) = true) :
    bits (x + x * y) = bits x := by
  obtain ⟨s, hv⟩ := unpacked_of_beq_zero hy
  rcases (reads x).of_lt_infinite hx with ⟨-, hzero⟩ | ⟨k, m, hm, hshape, hplace, hu⟩
  · omega
  · have hmul : x * y = ofUnpacked (.zero s) := by
      change ofUnpacked (UnpackedFloat.mul Format.binary64 (unpacked x) (unpacked y)) = _
      rw [hu, hv]
      cases s <;> rfl
    have hback : unpacked (ofUnpacked (.zero s)) = .zero s := by cases s <;> rfl
    rw [hmul]
    change bits (ofUnpacked (UnpackedFloat.add Format.binary64 (unpacked x)
      (unpacked (ofUnpacked (.zero s))))) = _
    rw [hback, hu]
    refine (bits_finite hshape .positive hm).trans ?_
    rw [signBit, Nat.zero_add, ← hplace]
    omega

end DeviceGateway.Double
