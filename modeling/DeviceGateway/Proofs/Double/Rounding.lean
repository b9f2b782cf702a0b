import DeviceGateway.Proofs.Double.Bits

/-!
# Rounding to a nearest double

The last bits of a significand that does not fit are shifted out. What remains, with the last bit
that went and whether any before it was set, says on which side of the half the exact value lies, so
the rounded significand is a nearest one; the double that is packed from it is nearest to the exact
value, and infinite past the largest.
-/

namespace DeviceGateway.Double

open Float.Model (Format UnpackedFloat totalExponent)
open Float.Model.UnpackedFloat (Sign Accuracy ExtendedMantissa shiftToTargetExponent
  roundWithAccuracy decreaseExponent)

/-- The significand and the bits shifted out of it stand for `y`. -/
def Stands (em : ExtendedMantissa) (y : ℚ) : Prop :=
  match em.roundBit, em.stickyBit with
  | false, false => y = em.mantissa
  | false, true => em.mantissa < y ∧ 2 * y < 2 * em.mantissa + 1
  | true, false => 2 * y = 2 * em.mantissa + 1
  | true, true => 2 * em.mantissa + 1 < 2 * y ∧ y < em.mantissa + 1

theorem stands_exact (m : Nat) : Stands (ExtendedMantissa.ofMantissaAndAccuracy m .exact) m := by
  simp [Stands, ExtendedMantissa.ofMantissaAndAccuracy]

theorem Stands.shiftRightOne {em : ExtendedMantissa} {y : ℚ} (h : Stands em y) :
    Stands em.shiftRightOne (y / 2) := by
  obtain ⟨m, half, rest⟩ := em
  have hsplit : (m : ℚ) = 2 * (m / 2 : Nat) + (m % 2 : Nat) := by
    exact_mod_cast (Nat.div_add_mod m 2).symm
  have heven : ((0 : Nat) != 0) = false := rfl
  have hodd : ((1 : Nat) != 0) = true := rfl
  rcases Nat.mod_two_eq_zero_or_one m with hm | hm
  all_goals
    rw [hm] at hsplit
    push_cast at hsplit
    cases half <;> cases rest
    all_goals
      simp only [Stands, ExtendedMantissa.shiftRightOne, hm, heven, hodd, Bool.or_false,
        Bool.or_true] at h ⊢
      first
        | linarith
        | exact ⟨by linarith, by linarith⟩

theorem Stands.shiftRight {em : ExtendedMantissa} {y : ℚ} (h : Stands em y) (n : Nat) :
    Stands (em >>> n) (y / 2 ^ n) := by
  change Stands (n.repeat ExtendedMantissa.shiftRightOne em) _
  induction n with
  | zero => simpa [Nat.repeat] using h
  | succ n ih =>
    rw [Nat.repeat, pow_succ, ← div_div]
    exact ih.shiftRightOne

theorem shiftRight_mantissa (em : ExtendedMantissa) (n : Nat) :
    (em >>> n).mantissa = em.mantissa / 2 ^ n := by
  change (n.repeat ExtendedMantissa.shiftRightOne em).mantissa = _
  induction n with
  | zero => simp [Nat.repeat]
  | succ n ih =>
    rw [Nat.repeat, Nat.pow_succ, ← Nat.div_div_eq_div_mul, ← ih]
    rfl

theorem Stands.rounded {em : ExtendedMantissa} {y : ℚ} (h : Stands em y) :
    (em.roundedMantissa = em.mantissa ∧ em.mantissa ≤ y ∧ 2 * y ≤ 2 * em.mantissa + 1) ∨
    (em.roundedMantissa = em.mantissa + 1 ∧ y ≤ em.mantissa + 1 ∧ 2 * em.mantissa + 1 ≤ 2 * y) := by
  obtain ⟨m, half, rest⟩ := em
  cases half <;> cases rest <;> simp only [Stands] at h
  · exact .inl ⟨rfl, by linarith, by linarith⟩
  · exact .inl ⟨rfl, by linarith, by linarith⟩
  · have htie : (ExtendedMantissa.mk m true false).roundedMantissa = m + m % 2 := rfl
    rcases Nat.mod_two_eq_zero_or_one m with hm | hm
    · exact .inl ⟨by rw [htie, hm, Nat.add_zero], by linarith, by linarith⟩
    · exact .inr ⟨by rw [htie, hm], by linarith, by linarith⟩
  · exact .inr ⟨rfl, by linarith, by linarith⟩

def lastPlace (m : Nat) (e : Int) : Int := max ((m.log2 : Int) + e - 52) (-1074)

theorem targetExponent_eq (m : Nat) (e : Int) :
    Format.binary64.targetExponent (totalExponent m e) = lastPlace m e := by
  change max ((m.log2 : Int) + 1 + e - 53) (-1074) = max _ _
  omega

theorem shiftToTargetExponent_eq (m : Nat) (e : Int) (a : Accuracy) :
    shiftToTargetExponent Format.binary64 m e a =
      (ExtendedMantissa.ofMantissaAndAccuracy m a >>> (lastPlace m e - e).toNat,
        e + (lastPlace m e - e).toNat) := by
  rw [← targetExponent_eq]
  rfl

theorem ofMantissaAndAccuracy_mantissa (m : Nat) (a : Accuracy) :
    (ExtendedMantissa.ofMantissaAndAccuracy m a).mantissa = m := by
  cases a with
  | exact => rfl
  | inexact side => cases side <;> rfl

theorem exists_shifted {k m : Nat} (hm : m ≤ 2 ^ 53) (hfull : 2 ^ 52 ≤ m ∨ k = 0) :
    ∃ k' m' : Nat, Shape k' m' ∧ place k' m' = place k m ∧
      (shiftToTargetExponent Format.binary64 m ((k : Int) - 1074) .exact).1.mantissa = m' ∧
      (shiftToTargetExponent Format.binary64 m ((k : Int) - 1074) .exact).2 =
        (k' : Int) - 1074 := by
  rw [shiftToTargetExponent_eq]
  simp only [shiftRight_mantissa, ofMantissaAndAccuracy_mantissa, lastPlace]
  rcases Nat.lt_or_eq_of_le hm with hlt | rfl
  · have hlog : m.log2 < 53 := by
      rcases Nat.eq_zero_or_pos m with rfl | hpos
      · decide
      · exact (Nat.log2_lt hpos.ne').2 hlt
    have hstay : (max ((m.log2 : Int) + (k - 1074) - 52) (-1074) - (k - 1074)).toNat = 0 := by omega
    rw [hstay]
    exact ⟨k, m, ⟨hlt, hfull⟩, rfl, by simp, by simp⟩
  · have hone : (max (((2 ^ 53).log2 : Int) + (k - 1074) - 52) (-1074) - (k - 1074)).toNat = 1 := by
      rw [Nat.log2_two_pow]
      omega
    rw [hone]
    refine ⟨k + 1, 2 ^ 52, ⟨by decide, .inl (by decide)⟩, ?_, by decide, by omega⟩
    simp only [place]
    omega

theorem shape_shifted {m n k : Nat} {e : Int} (hn : e + n = (k : Int) - 1074)
    (hplace : (k : Int) - 1074 = lastPlace m e) : Shape k (m / 2 ^ n) := by
  have hlt : m < 2 ^ (m.log2 + 1) := Nat.lt_log2_self
  simp only [lastPlace] at hplace
  refine ⟨?_, ?_⟩
  · rw [Nat.div_lt_iff_lt_mul (Nat.two_pow_pos n), ← Nat.pow_add]
    exact Nat.lt_of_lt_of_le hlt (Nat.pow_le_pow_right (by decide) (by omega))
  · by_cases hk : k = 0
    · exact .inr hk
    · left
      have hm : m ≠ 0 := by
        rintro rfl
        simp only [Nat.log2_zero] at hplace
        omega
      rw [Nat.le_div_iff_mul_le (Nat.two_pow_pos n), ← Nat.pow_add]
      exact Nat.le_trans (Nat.pow_le_pow_right (by decide) (by omega)) (Nat.log2_self_le hm)

theorem nearest_of_stands {em : ExtendedMantissa} {y : ℚ} {k : Nat} (h : Stands em y)
    (hshape : Shape k em.mantissa) : Nearest (y * 2 ^ k) (place k em.roundedMantissa) := by
  have hpow : (0 : ℚ) < 2 ^ k := by positivity
  have hsize : (size (place k em.mantissa) : ℚ) = em.mantissa * 2 ^ k := by
    exact_mod_cast hshape.size
  have hsucc : (size (place k em.mantissa + 1) : ℚ) = (em.mantissa + 1) * 2 ^ k := by
    exact_mod_cast hshape.size_succ
  rcases h.rounded with ⟨hr, hle, hhalf⟩ | ⟨hr, hle, hhalf⟩
  · rw [hr]
    refine .below ?_ ?_
    · rw [hsize]
      exact mul_le_mul_of_nonneg_right hle hpow.le
    · rw [hsize, hsucc]
      have hscaled := mul_le_mul_of_nonneg_right hhalf hpow.le
      linarith
  · have hplace : place k em.roundedMantissa = place k em.mantissa + 1 := by
      rw [hr, place, place, Nat.add_assoc]
    rw [hplace]
    refine .above ?_ ?_
    · rw [hsucc]
      exact mul_le_mul_of_nonneg_right hle hpow.le
    · rw [hsize, hsucc]
      have hscaled := mul_le_mul_of_nonneg_right hhalf hpow.le
      linarith

theorem Stands.rounded_le {em : ExtendedMantissa} {y : ℚ} (h : Stands em y) :
    em.mantissa ≤ em.roundedMantissa ∧ em.roundedMantissa ≤ em.mantissa + 1 := by
  rcases h.rounded with ⟨hr, -⟩ | ⟨hr, -⟩
  · exact ⟨hr.ge, hr.le.trans (Nat.le_succ _)⟩
  · exact ⟨(Nat.le_succ _).trans hr.ge, hr.le⟩

theorem bits_roundWithAccuracy (s : Sign) {m : Nat} {e : Int} {a : Accuracy} {y : ℚ}
    (hy : Stands (ExtendedMantissa.ofMantissaAndAccuracy m a) y) (he : e ≤ lastPlace m e) :
    ∃ b, Nearest (y * 2 ^ (e + 1074)) b ∧
      bits (ofUnpacked (roundWithAccuracy Format.binary64 s m e a)) =
        signBit s + min b infinite := by
  obtain ⟨k, hk⟩ : ∃ k : Nat, (k : Int) - 1074 = lastPlace m e :=
    ⟨(lastPlace m e + 1074).toNat, by simp only [lastPlace]; omega⟩
  obtain ⟨n, hn⟩ : ∃ n : Nat, (lastPlace m e - e).toNat = n := ⟨_, rfl⟩
  have hsum : e + n = (k : Int) - 1074 := by omega
  have hshifted := hy.shiftRight n
  have hmantissa := shiftRight_mantissa (ExtendedMantissa.ofMantissaAndAccuracy m a) n
  rw [ofMantissaAndAccuracy_mantissa] at hmantissa
  have hshape := hmantissa ▸ shape_shifted hsum hk
  have hx : y * 2 ^ (e + 1074) = y / 2 ^ n * 2 ^ k := by
    have hzpow : (2 : ℚ) ^ (e + 1074) * 2 ^ n = 2 ^ k := by
      rw [← zpow_natCast 2 n, ← zpow_add₀ (by norm_num), ← zpow_natCast 2 k]
      congr 1
      omega
    rw [← hzpow]
    field_simp
  refine ⟨_, hx ▸ nearest_of_stands hshifted hshape, ?_⟩
  obtain ⟨hge, hle⟩ := hshifted.rounded_le
  obtain ⟨k', m', hshape', hplace, hm', he'⟩ := exists_shifted
    (hle.trans hshape.lt) (hshape.full.imp_left fun h => h.trans hge)
  rw [← hplace, roundWithAccuracy, shiftToTargetExponent_eq m e a, hn, hsum]
  dsimp only
  generalize shiftToTargetExponent Format.binary64 _ ((k : Int) - 1074) .exact = second at hm' he'
  obtain ⟨em, e'⟩ := second
  dsimp only at hm' he' ⊢
  subst hm' he'
  split
  · rename_i hzero
    obtain rfl : k' = 0 := hshape'.full.resolve_left (by omega)
    rw [bits_zero, place, hzero]
    rfl
  · exact bits_finite hshape' s _

theorem log2_shiftLeft {m : Nat} (hm : 0 < m) (n : Nat) : (m <<< n).log2 = m.log2 + n := by
  rw [Nat.shiftLeft_eq, Nat.log2_eq_iff (Nat.mul_pos hm (Nat.two_pow_pos n)).ne', Nat.pow_add,
    Nat.add_right_comm, Nat.pow_add]
  exact ⟨Nat.mul_le_mul_right _ (Nat.log2_self_le hm.ne'),
    Nat.mul_lt_mul_of_pos_right Nat.lt_log2_self (Nat.two_pow_pos n)⟩

theorem bits_round (s : Sign) {m : Nat} (hm : 0 < m) (e : Int) :
    ∃ b, Nearest (m * 2 ^ (e + 1074)) b ∧
      bits (ofUnpacked (UnpackedFloat.round Format.binary64 s m e)) =
        signBit s + min b infinite := by
  obtain ⟨n, hn⟩ : ∃ n : Nat, (e - lastPlace m e).toNat = n := ⟨_, rfl⟩
  have hround : UnpackedFloat.round Format.binary64 s m e =
      roundWithAccuracy Format.binary64 s (m <<< n) (e - n) .exact := by
    rw [← hn, ← targetExponent_eq]
    rfl
  have he : e - n ≤ lastPlace (m <<< n) (e - n) := by
    simp only [lastPlace, log2_shiftLeft hm] at hn ⊢
    omega
  obtain ⟨b, hb, hbits⟩ := bits_roundWithAccuracy s (stands_exact (m <<< n)) he
  refine ⟨b, ?_, hround ▸ hbits⟩
  have hvalue : ((m <<< n : Nat) : ℚ) * 2 ^ (e - n + 1074) = m * 2 ^ (e + 1074) := by
    rw [Nat.shiftLeft_eq, Nat.cast_mul, Nat.cast_pow, Nat.cast_ofNat, mul_assoc, ← zpow_natCast,
      ← zpow_add₀ (by norm_num)]
    congr 2
    omega
  rwa [← hvalue]

end DeviceGateway.Double
