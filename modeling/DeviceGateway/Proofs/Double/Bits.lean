import Mathlib
import DeviceGateway.Proofs.Double.Sizes

/-!
# The bits of doubles

A double is worked with by its sign, its significand and its power of two, and kept as bits. Both
ways between the two forms, and what the comparisons say of the bits: apart from what is no number,
doubles are ordered as their bits are, those with a sign downwards from zero.

What is known of packing and unpacking comes from `Batteries.Data.Float.Lemmas`, which no single
module of Mathlib imports: hence the import of all of it.
-/

namespace DeviceGateway.Double

open Float.Model (Format UnpackedFloat)
open Float.Model.UnpackedFloat (Sign packComponents unpackMantissa unpackExponent unpackSign)

def bits (x : Float) : Nat := x.toBits.toNat

def infinite : Nat := 2047 * 2 ^ 52

def signBit : Sign → Nat
  | .positive => 0
  | .negative => 2 ^ 63

def ofUnpacked (u : UnpackedFloat) : Float := .ofModel (.pack u)

theorem toNat_packComponents (s : Sign) (e : BitVec 11) (m : BitVec 52) :
    (packComponents Format.binary64 s e m).toNat = signBit s + e.toNat * 2 ^ 52 + m.toNat := by
  have hsign : s.toBitVec.toNat * 2 ^ 63 = signBit s := by cases s <;> rfl
  change (s.toBitVec ++ e ++ m).toNat = _
  rw [BitVec.toNat_append, ← Nat.shiftLeft_add_eq_or_of_lt m.isLt, BitVec.toNat_append,
    ← Nat.shiftLeft_add_eq_or_of_lt e.isLt, Nat.shiftLeft_eq, Nat.shiftLeft_eq, ← hsign]
  ring

theorem bits_ofUnpacked (u : UnpackedFloat) :
    bits (ofUnpacked u) = (UnpackedFloat.pack Format.binary64 u).toNat := rfl

theorem bits_zero (s : Sign) : bits (ofUnpacked (.zero s)) = signBit s := by cases s <;> rfl

theorem bits_infinity (s : Sign) : bits (ofUnpacked (.infinity s)) = signBit s + infinite := by
  cases s <;> rfl

theorem bits_finite {k m : Nat} (h : Shape k m) (s : Sign) (hm : 0 < m) :
    bits (ofUnpacked (.finite s m ((k : Int) - 1074) hm)) =
      signBit s + min (place k m) infinite := by
  have hbiased : ((k : Int) - 1074 + Format.exponentBias Format.binary64 +
      Format.mantissaBitsWithoutImplicit Format.binary64).toNat = k + 1 := by
    change ((k : Int) - 1074 + 1023 + 52).toNat = k + 1
    omega
  have hlog : m.log2 + 1 = Format.mantissaBits Format.binary64 ↔ 2 ^ 52 ≤ m := by
    change m.log2 + 1 = 53 ↔ _
    rw [← Nat.le_log2 hm.ne']
    have hlt := (Nat.log2_lt hm.ne').2 h.lt
    omega
  rw [bits_ofUnpacked, UnpackedFloat.pack]
  simp only [hbiased, hlog]
  change BitVec.toNat (if 2 ^ 11 ≤ k + 1 + 1 then _ else _) = _
  have hlt := h.lt
  split
  · rename_i hbig
    have hfull := h.full.resolve_right (by omega)
    have hge : infinite ≤ place k m := by
      simp only [infinite, place]
      omega
    rw [Nat.min_eq_right hge, ← bits_infinity]
    rfl
  · rename_i hsmall
    have hplace : place k m < infinite := by
      simp only [infinite, place]
      omega
    rw [Nat.min_eq_left (Nat.le_of_lt hplace), place, ← Nat.add_assoc]
    split
    · have hk : (k + 1) % 2 ^ 11 = k + 1 := Nat.mod_eq_of_lt (by omega)
      refine (toNat_packComponents _ _ _).trans ?_
      rw [BitVec.toNat_ofNat, BitVec.toNat_ofNat, hk]
      omega
    · have hk : k = 0 := h.full.resolve_left ‹_›
      refine (toNat_packComponents _ _ _).trans ?_
      rw [BitVec.toNat_zero, BitVec.toNat_ofNat, Nat.mod_eq_of_lt (by omega), hk]

def unpacked (x : Float) : UnpackedFloat := x.toModel.unpack

/-- What the parts of a double say of its bits. -/
inductive Reads : UnpackedFloat → Nat → Prop
  | zero (s : Sign) : Reads (.zero s) (signBit s)
  | finite {k m : Nat} (s : Sign) (h : Shape k m) (hm : 0 < m) (hlt : place k m < infinite) :
      Reads (.finite s m ((k : Int) - 1074) hm) (signBit s + place k m)
  | infinity (s : Sign) : Reads (.infinity s) (signBit s + infinite)
  | notANumber : Reads .notANumber (infinite + 2 ^ 51)

theorem shape_normal {e : BitVec 11} (m : BitVec 52) (hzero : e ≠ 0#11) (hones : e ≠ -1#11) :
    Shape (e.toNat - 1) (1#1 ++ m).toNat ∧ (e.toNat : Int) - 1075 = ((e.toNat - 1 : Nat) : Int) - 1074 ∧
      place (e.toNat - 1) (1#1 ++ m).toNat < infinite := by
  have hpos : e.toNat ≠ 0 := fun h => hzero (BitVec.eq_of_toNat_eq h)
  have hlow : e.toNat ≠ 2047 := fun h => hones (BitVec.eq_of_toNat_eq h)
  have he := e.isLt
  have hm := m.isLt
  have hfull : (1#1 ++ m).toNat = 2 ^ 52 + m.toNat := by
    rw [BitVec.toNat_append, ← Nat.shiftLeft_add_eq_or_of_lt m.isLt]
    rfl
  rw [hfull, place, infinite]
  exact ⟨⟨by omega, .inl (by omega)⟩, by omega, by omega⟩

theorem shape_of_unpack {b : BitVec 64} {s : Sign} {m : Nat} {e : Int} {hm : 0 < m}
    (h : UnpackedFloat.unpack Format.binary64 b = .finite s m e hm) :
    ∃ k : Nat, Shape k m ∧ e = k - 1074 ∧ place k m < infinite := by
  simp only [UnpackedFloat.unpack] at h
  split at h
  · split at h
    · exact nomatch h
    · exact nomatch h
  · rename_i hones
    split at h
    · rename_i hzero
      split at h
      · exact nomatch h
      · injection h with _ hmantissa hexponent
        have hlt := (@unpackMantissa Format.binary64 b).isLt
        rw [hmantissa] at hlt
        change m < 2 ^ 52 at hlt
        rw [hzero] at hexponent
        refine ⟨0, ⟨by omega, .inr rfl⟩, hexponent.symm, ?_⟩
        rw [place, infinite]
        omega
    · rename_i hzero
      injection h with _ hmantissa hexponent
      have hshape := shape_normal (@unpackMantissa Format.binary64 b) hzero hones
      rw [hmantissa] at hshape
      exact ⟨_, hshape.1, hexponent.symm.trans hshape.2.1, hshape.2.2⟩

theorem bits_ofUnpacked_unpacked (x : Float) : bits (ofUnpacked (unpacked x)) = bits x := by
  obtain ⟨⟨word, hvalid⟩⟩ := x
  exact congrArg BitVec.toNat (UnpackedFloat.pack_unpack_of_valid hvalid)

theorem reads (x : Float) : Reads (unpacked x) (bits x) := by
  rw [← bits_ofUnpacked_unpacked x]
  cases hu : unpacked x with
  | notANumber => exact .notANumber
  | zero s => exact bits_zero s ▸ .zero s
  | infinity s => exact bits_infinity s ▸ .infinity s
  | finite s m e hm =>
    obtain ⟨k, hshape, rfl, hlt⟩ := shape_of_unpack hu
    rw [bits_finite hshape s hm, Nat.min_eq_left (Nat.le_of_lt hlt)]
    exact .finite s hshape hm hlt

theorem Reads.of_lt_infinite {u : UnpackedFloat} {n : Nat} (h : Reads u n) (hn : n < infinite) :
    (u = .zero .positive ∧ n = 0) ∨ ∃ k m, ∃ hm : 0 < m, Shape k m ∧ n = place k m ∧
      u = .finite .positive m ((k : Int) - 1074) hm := by
  have hneg : ∀ p, ¬signBit .negative + p < infinite := fun p hp =>
    absurd (Nat.lt_of_le_of_lt (Nat.le_add_right _ p) hp) (by decide)
  cases h with
  | notANumber => exact absurd hn (by decide)
  | zero s =>
    cases s with
    | positive => exact .inl ⟨rfl, rfl⟩
    | negative => exact absurd hn (hneg 0)
  | infinity s =>
    cases s with
    | positive => exact absurd hn (by decide)
    | negative => exact absurd hn (hneg _)
  | @finite k m s hshape hm hlt =>
    cases s with
    | positive => exact .inr ⟨k, m, hm, hshape, Nat.zero_add _, rfl⟩
    | negative => exact absurd hn (hneg _)

theorem Reads.of_lt_signBit {u : UnpackedFloat} {n : Nat} (h : Reads u n) (hn : n < 2 ^ 63) :
    u = .notANumber ∨ u = .infinity .positive ∨ n < infinite := by
  have hneg : ∀ p, ¬signBit .negative + p < 2 ^ 63 := fun p hp =>
    Nat.not_lt.2 (Nat.le_add_right _ p) hp
  cases h with
  | notANumber => exact .inl rfl
  | zero s =>
    cases s with
    | positive => exact .inr (.inr (by decide))
    | negative => exact absurd hn (hneg 0)
  | infinity s =>
    cases s with
    | positive => exact .inr (.inl rfl)
    | negative => exact absurd hn (hneg _)
  | finite s hshape hm hlt =>
    cases s with
    | positive => exact .inr (.inr (by rwa [signBit, Nat.zero_add]))
    | negative => exact absurd hn (hneg _)

theorem isNaN_iff {x : Float} : x.isNaN = true ↔ bits x = infinite + 2 ^ 51 := by
  obtain ⟨⟨word, hvalid⟩⟩ := x
  change (UnpackedFloat.unpack Format.binary64 word.toBitVec).isNaN = true ↔
    word.toBitVec.toNat = (UnpackedFloat.packedNaN Format.binary64).toNat
  rw [UnpackedFloat.isNaN_unpack_iff_of_valid hvalid, BitVec.toNat_inj]

theorem isFinite_iff {x : Float} (hx : bits x < 2 ^ 63) :
    x.isFinite = true ↔ bits x < infinite := by
  have h := reads x
  change (unpacked x).isFinite = true ↔ _
  rcases h.of_lt_signBit hx with hu | hu | hlt
  · rw [hu] at h ⊢
    generalize bits x = n at h
    cases h
    decide
  · rw [hu] at h ⊢
    generalize bits x = n at h
    cases h
    decide
  · rcases h.of_lt_infinite hlt with ⟨hu, -⟩ | ⟨k, m, hm, -, -, hu⟩
    · simp [hu, hlt, UnpackedFloat.isFinite]
    · simp [hu, hlt, UnpackedFloat.isFinite]

def key (n : Nat) : Int := if n < 2 ^ 63 then n else 2 ^ 63 - n

theorem key_add (s : Sign) {n : Nat} (h : n < 2 ^ 63) : key (signBit s + n) = s.apply n := by
  cases s with
  | positive =>
    simp only [key, signBit, Sign.apply]
    omega
  | negative =>
    simp only [key, signBit, Sign.apply]
    omega

theorem compare_place {k m k' m' : Nat} (h : Shape k m) (h' : Shape k' m') :
    (compare ((k : Int) - 1074) (k' - 1074)).then (compare m m') =
      compare (place k m : Int) (place k' m') := by
  have hlt := h.lt
  have hlt' := h'.lt
  have hfull := h.full
  have hfull' := h'.full
  simp only [place]
  rcases Nat.lt_trichotomy k k' with hk | rfl | hk
  · rw [Int.compare_eq_lt.2 (by omega), Int.compare_eq_lt.2 (by omega)]
    rfl
  · rw [Int.compare_eq_eq.2 rfl]
    change compare m m' = _
    rcases Nat.lt_trichotomy m m' with hm | rfl | hm
    · rw [Nat.compare_eq_lt.2 hm, Int.compare_eq_lt.2 (by omega)]
    · rw [Nat.compare_eq_eq.2 rfl, Int.compare_eq_eq.2 rfl]
    · rw [Nat.compare_eq_gt.2 hm, Int.compare_eq_gt.2 (by omega)]
  · rw [Int.compare_eq_gt.2 (by omega), Int.compare_eq_gt.2 (by omega)]
    rfl

theorem compare_finite {k m k' m' : Nat} (h : Shape k m) (h' : Shape k' m') (s t : Sign)
    (hm : 0 < m) (hm' : 0 < m') :
    UnpackedFloat.compare (.finite s m ((k : Int) - 1074) hm) (.finite t m' ((k' : Int) - 1074) hm')
      = some (compare (s.apply (place k m)) (t.apply (place k' m'))) := by
  have hpos : 0 < place k m := Nat.add_pos_right _ hm
  have hpos' : 0 < place k' m' := Nat.add_pos_right _ hm'
  have hplace := compare_place h h'
  cases s <;> cases t <;> simp only [UnpackedFloat.compare, Sign.apply, hplace]
  · rw [Int.compare_swap]
    rcases Int.lt_trichotomy (place k m) (place k' m') with h | h | h
    · rw [Int.compare_eq_gt.2 h, Int.compare_eq_gt.2 (by omega)]
    · rw [h, Int.compare_eq_eq.2 rfl, Int.compare_eq_eq.2 rfl]
    · rw [Int.compare_eq_lt.2 h, Int.compare_eq_lt.2 (by omega)]
  · rw [Int.compare_eq_lt.2 (by omega)]
  · rw [Int.compare_eq_gt.2 (by omega)]

theorem compare_eq {u v : UnpackedFloat} {m n : Nat} (hu : Reads u m) (hv : Reads v n) :
    u.compare v = if u.isNaN || v.isNaN then none else some (compare (key m) (key n)) := by
  have hzero (s : Sign) : key (signBit s) = 0 := by cases s <;> rfl
  have hend (s : Sign) : key (signBit s + infinite) = s.apply infinite := key_add s (by decide)
  have hplace {k m : Nat} (s : Sign) (h : place k m < infinite) :
      key (signBit s + place k m) = s.apply (place k m) :=
    key_add s (Nat.lt_trans h (by decide))
  have hless {a b : Int} (h : a < b) : some Ordering.lt = some (compare a b) :=
    congrArg some (Int.compare_eq_lt.2 h).symm
  have hmore {a b : Int} (h : b < a) : some Ordering.gt = some (compare a b) :=
    congrArg some (Int.compare_eq_gt.2 h).symm
  have hpos {k m : Nat} (h : 0 < m) : 0 < place k m := Nat.add_pos_right _ h
  cases hu with
  | notANumber => cases hv <;> rfl
  | zero s =>
    cases hv with
    | notANumber => rfl
    | zero t =>
      rw [hzero, hzero]
      rfl
    | infinity t =>
      rw [hzero, hend]
      cases t <;> rfl
    | @finite k m t h hm hlt =>
      have hm' := hpos (k := k) hm
      rw [hzero, hplace t hlt]
      cases t with
      | positive => exact hless (by simp only [Sign.apply]; omega)
      | negative => exact hmore (by simp only [Sign.apply]; omega)
  | infinity s =>
    cases hv with
    | notANumber => cases s <;> rfl
    | zero t =>
      rw [hend, hzero]
      cases s <;> rfl
    | infinity t =>
      rw [hend, hend]
      cases s <;> cases t <;> rfl
    | finite t h hm hlt =>
      rw [hend, hplace t hlt]
      cases s with
      | positive => exact hmore (by cases t <;> simp only [Sign.apply] <;> omega)
      | negative => exact hless (by cases t <;> simp only [Sign.apply] <;> omega)
  | @finite k m s h hm hlt =>
    cases hv with
    | notANumber => rfl
    | zero t =>
      have hm' := hpos (k := k) hm
      rw [hplace s hlt, hzero]
      cases s with
      | positive => exact hmore (by simp only [Sign.apply]; omega)
      | negative => exact hless (by simp only [Sign.apply]; omega)
    | infinity t =>
      rw [hplace s hlt, hend]
      cases t with
      | positive => exact hless (by cases s <;> simp only [Sign.apply] <;> omega)
      | negative => exact hmore (by cases s <;> simp only [Sign.apply] <;> omega)
    | finite t h' hm' hlt' =>
      rw [hplace s hlt, hplace t hlt']
      exact compare_finite h h' s t hm hm'

variable {x y : Float}

theorem compare_unpacked (x y : Float) :
    (unpacked x).compare (unpacked y) =
      if x.isNaN || y.isNaN then none else some (compare (key (bits x)) (key (bits y))) :=
  compare_eq (reads x) (reads y)

theorem lt_iff : x < y ↔ x.isNaN = false ∧ y.isNaN = false ∧ key (bits x) < key (bits y) := by
  have h : x < y ↔ ((unpacked x).compare (unpacked y) == some .lt) = true := decide_eq_true_iff
  rw [h, compare_unpacked]
  cases x.isNaN <;> cases y.isNaN <;> simp [Int.compare_eq_lt]

theorem le_iff : x ≤ y ↔ x.isNaN = false ∧ y.isNaN = false ∧ key (bits x) ≤ key (bits y) := by
  have h : x ≤ y ↔ ((unpacked x).compare (unpacked y)).any (·.isLE) = true := decide_eq_true_iff
  rw [h, compare_unpacked]
  cases x.isNaN <;> cases y.isNaN <;> simp [Int.isLE_compare]

theorem beq_iff :
    (x == y) = true ↔ x.isNaN = false ∧ y.isNaN = false ∧ key (bits x) = key (bits y) := by
  change ((unpacked x).compare (unpacked y) == some .eq) = true ↔ _
  rw [compare_unpacked]
  cases x.isNaN <;> cases y.isNaN <;> simp

theorem le_of_not_lt (hx : x.isNaN = false) (hy : y.isNaN = false) (h : ¬x < y) : y ≤ x := by
  rw [lt_iff] at h
  rw [le_iff]
  exact ⟨hy, hx, Int.not_lt.1 fun hlt => h ⟨hx, hy, hlt⟩⟩

theorem isNaN_of_lt (hx : bits x < infinite) : x.isNaN = false := by
  rw [← Bool.not_eq_true, isNaN_iff]
  omega

theorem key_nonpos {n : Nat} (hn : 2 ^ 63 ≤ n) : key n ≤ 0 := by
  rw [key, if_neg (Nat.not_lt.2 hn)]
  omega

theorem key_of_lt {n : Nat} (hn : n < 2 ^ 63) : key n = n := if_pos hn

theorem lt_iff_bits (hx : bits x < infinite) (hy : bits y < infinite) :
    x < y ↔ bits x < bits y := by
  have hend : infinite < 2 ^ 63 := by decide
  rw [lt_iff, isNaN_of_lt hx, isNaN_of_lt hy, key_of_lt (hx.trans hend), key_of_lt (hy.trans hend)]
  simp

theorem le_iff_bits (hx : bits x < infinite) (hy : bits y < infinite) :
    x ≤ y ↔ bits x ≤ bits y := by
  have hend : infinite < 2 ^ 63 := by decide
  rw [le_iff, isNaN_of_lt hx, isNaN_of_lt hy, key_of_lt (hx.trans hend), key_of_lt (hy.trans hend)]
  simp

theorem beq_zero_iff (hx : bits x < infinite) : (x == 0.0) = true ↔ bits x = 0 := by
  have hzero : (0.0 : Float).isNaN = false := by decide
  have hkey : key (bits 0.0) = 0 := by decide
  rw [beq_iff, isNaN_of_lt hx, hzero, hkey, key_of_lt (hx.trans (by decide))]
  simp

theorem unpacked_of_isNaN (h : x.isNaN = true) : unpacked x = .notANumber :=
  UnpackedFloat.isNaN_iff.1 h

theorem unpacked_of_beq_zero (h : (x == 0.0) = true) : ∃ s, unpacked x = .zero s := by
  change ((unpacked x).compare (.zero .positive) == some .eq) = true at h
  generalize unpacked x = u at h ⊢
  cases u with
  | notANumber => exact nomatch h
  | zero s => exact ⟨s, rfl⟩
  | finite s m e hm => cases s <;> exact nomatch h
  | infinity s => cases s <;> exact nomatch h

end DeviceGateway.Double
