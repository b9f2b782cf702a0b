import Mathlib.Algebra.Order.Field.Rat
import Mathlib.Data.Nat.Cast.Order.Ring
import Mathlib.Order.Monotone.Basic
import Mathlib.Tactic.Linarith
import Mathlib.Tactic.Positivity
import Mathlib.Tactic.Ring

/-!
# The sizes of doubles

The bits of a double without a sign, read as a number, count the doubles below it. Its size is a
whole number of the smallest double, `2 ^ -1074`: between powers of two the sizes are evenly spaced,
and the spacing doubles at each of them. Rounding picks a nearest size, and that alone makes it keep
order and leave sizes as they are.
-/

namespace DeviceGateway.Double

/-- The size of the double with these bits, as if there were no largest one. -/
def size (bits : Nat) : Nat :=
  if bits < 2 ^ 52 then bits else (2 ^ 52 + bits % 2 ^ 52) * 2 ^ (bits / 2 ^ 52 - 1)

/-- A significand and how often it is doubled; a short one is not doubled at all. -/
structure Shape (k m : Nat) : Prop where
  lt : m < 2 ^ 53
  full : 2 ^ 52 ≤ m ∨ k = 0

def place (k m : Nat) : Nat := k * 2 ^ 52 + m

theorem exists_shape (bits : Nat) : ∃ k m, Shape k m ∧ bits = place k m := by
  have hsplit := Nat.div_add_mod bits (2 ^ 52)
  have hmod := Nat.mod_lt bits (Nat.two_pow_pos 52)
  by_cases h : bits < 2 ^ 52
  · exact ⟨0, bits, ⟨by omega, .inr rfl⟩, by simp [place]⟩
  · exact ⟨bits / 2 ^ 52 - 1, 2 ^ 52 + bits % 2 ^ 52, ⟨by omega, .inl (by omega)⟩,
      by simp only [place]; omega⟩

theorem size_place {k m : Nat} (hm : m ≤ 2 ^ 53) (hfull : 2 ^ 52 ≤ m ∨ k = 0) :
    size (place k m) = m * 2 ^ k := by
  rcases Nat.lt_or_ge m (2 ^ 52) with hlow | hlow
  · obtain rfl : k = 0 := hfull.resolve_left (by omega)
    rw [place, Nat.zero_mul, Nat.zero_add, size, if_pos hlow, Nat.pow_zero, Nat.mul_one]
  have hplace : ¬place k m < 2 ^ 52 := by
    simp only [place]
    omega
  rw [size, if_neg hplace]
  rcases Nat.lt_or_eq_of_le hm with hlt | rfl
  · have hmod : place k m % 2 ^ 52 = m - 2 ^ 52 := by
      simp only [place]
      omega
    have hdiv : place k m / 2 ^ 52 - 1 = k := by
      simp only [place]
      omega
    rw [hmod, hdiv, Nat.add_sub_cancel' hlow]
  · have hmod : place k (2 ^ 53) % 2 ^ 52 = 0 := by
      simp only [place]
      omega
    have hdiv : place k (2 ^ 53) / 2 ^ 52 - 1 = k + 1 := by
      simp only [place]
      omega
    rw [hmod, hdiv]
    ring

theorem Shape.size {k m : Nat} (h : Shape k m) : size (place k m) = m * 2 ^ k :=
  size_place (Nat.le_of_lt h.lt) h.full

theorem Shape.size_succ {k m : Nat} (h : Shape k m) :
    Double.size (place k m + 1) = (m + 1) * 2 ^ k := by
  have hplace : place k m + 1 = place k (m + 1) := Nat.add_assoc _ _ _
  rw [hplace, size_place h.lt (h.full.imp_left Nat.le_succ_of_le)]

theorem size_lt_succ (bits : Nat) : size bits < size (bits + 1) := by
  obtain ⟨k, m, h, rfl⟩ := exists_shape bits
  rw [h.size, h.size_succ]
  exact Nat.mul_lt_mul_of_pos_right (Nat.lt_succ_self m) (Nat.two_pow_pos k)

theorem size_strictMono : StrictMono size := strictMono_nat_of_lt_succ size_lt_succ

theorem size_le {a b : Nat} : size a ≤ size b ↔ a ≤ b := size_strictMono.le_iff_le

theorem size_lt {a b : Nat} : size a < size b ↔ a < b := size_strictMono.lt_iff_lt

theorem exists_size {m : Nat} (hm : m < 2 ^ 53) (k : Nat) : ∃ bits, size bits = m * 2 ^ k := by
  induction k generalizing m with
  | zero => exact ⟨place 0 m, size_place (Nat.le_of_lt hm) (.inr rfl)⟩
  | succ k ih =>
    by_cases hfull : 2 ^ 52 ≤ m
    · exact ⟨place (k + 1) m, size_place (Nat.le_of_lt hm) (.inl hfull)⟩
    · obtain ⟨bits, h⟩ := ih (m := 2 * m) (by omega)
      exact ⟨bits, by rw [h]; ring⟩

def unit : Nat := 2 ^ 1074

theorem unit_pos : 0 < unit := by
  unfold unit
  positivity

theorem unit_eq {k : Nat} (hk : k ≤ 1074) : unit = 2 ^ (1074 - k) * 2 ^ k := by
  rw [← Nat.pow_add, Nat.sub_add_cancel hk, unit]

theorem unit_mul (j : Nat) : unit * 2 ^ j = 2 ^ (1074 + j) := by rw [unit, ← Nat.pow_add]

def power2 (j : Nat) : Nat := place (1022 + j) (2 ^ 52)

theorem size_power2 (j : Nat) : size (power2 j) = 2 ^ j * unit := by
  rw [power2, size_place (by decide) (.inl (le_refl _)), unit, ← Nat.pow_add, ← Nat.pow_add]
  congr 1
  omega

theorem size_power2_zero : size (power2 0) = unit := by
  rw [size_power2, Nat.pow_zero, Nat.one_mul]

theorem size_add_le_size_succ {bits : Nat} (h : power2 53 ≤ bits) :
    size bits + 2 * unit ≤ size (bits + 1) := by
  obtain ⟨k, m, hshape, rfl⟩ := exists_shape bits
  have hlt := hshape.lt
  obtain ⟨j, rfl⟩ : ∃ j, k = 1074 + (j + 1) := by
    refine ⟨k - 1075, ?_⟩
    simp only [power2, place] at h
    omega
  have htwo : 2 ≤ 2 ^ (j + 1) := by
    rw [Nat.pow_succ]
    exact Nat.le_mul_of_pos_left 2 (Nat.two_pow_pos j)
  rw [hshape.size, hshape.size_succ, Nat.add_mul, Nat.one_mul, ← unit_mul, Nat.mul_comm 2]
  exact Nat.add_le_add_left (Nat.mul_le_mul_left unit htwo) _

theorem exists_size_whole {n : Nat} (hn : n < 2 ^ 53) : ∃ bits, size bits = n * unit :=
  exists_size hn 1074

theorem exists_size_sub {bits n : Nat} (hlt : bits < power2 53) (hle : n * unit ≤ size bits) :
    ∃ left, n * unit + size left = size bits := by
  obtain ⟨k, m, hshape, rfl⟩ := exists_shape bits
  have hk : k ≤ 1074 := by
    have hfull := hshape.full
    simp only [power2, place] at hlt
    omega
  rw [hshape.size, unit_eq hk, ← Nat.mul_assoc] at hle ⊢
  have hfewer := Nat.le_of_mul_le_mul_right hle (Nat.two_pow_pos k)
  obtain ⟨left, hleft⟩ := exists_size (m := m - n * 2 ^ (1074 - k))
    (Nat.lt_of_le_of_lt (Nat.sub_le _ _) hshape.lt) k
  exact ⟨left, by rw [hleft, ← Nat.add_mul, Nat.add_sub_cancel' hfewer]⟩

/-- The double with these bits is nearest to `x` from below or from above. -/
inductive Nearest (x : ℚ) : Nat → Prop
  | below {bits : Nat} (hle : size bits ≤ x) (hhalf : 2 * x ≤ size bits + size (bits + 1)) :
      Nearest x bits
  | above {bits : Nat} (hle : x ≤ size (bits + 1)) (hhalf : size bits + size (bits + 1) ≤ 2 * x) :
      Nearest x (bits + 1)

variable {x : ℚ} {a b : Nat}

theorem cast_size_le : (size a : ℚ) ≤ size b ↔ a ≤ b := by rw [Nat.cast_le, size_le]

theorem cast_size_lt : (size a : ℚ) < size b ↔ a < b := by rw [Nat.cast_lt, size_lt]

theorem nearest_size (a : Nat) : Nearest (size a) a := by
  refine .below (le_refl _) ?_
  have hlt := cast_size_lt.2 (Nat.lt_succ_self a)
  linarith

theorem Nearest.le_of_lt_half (h : Nearest x b) (hx : 2 * x < size a + size (a + 1)) : b ≤ a := by
  cases h with
  | below hle hhalf =>
    by_contra hlt
    have hsucc := cast_size_le.2 (Nat.lt_of_not_le hlt)
    have hgrow := cast_size_lt.2 (Nat.lt_succ_self a)
    linarith
  | @above c hle hhalf =>
    by_contra hlt
    have hsize := cast_size_le.2 (Nat.le_of_lt_succ (Nat.lt_of_not_le hlt))
    have hsucc := cast_size_le.2 (Nat.lt_of_not_le hlt)
    linarith

theorem Nearest.le (h : Nearest x b) (hx : x ≤ size a) : b ≤ a := by
  refine h.le_of_lt_half ?_
  have hgrow := cast_size_lt.2 (Nat.lt_succ_self a)
  linarith

theorem Nearest.ge (h : Nearest x b) (hx : size a ≤ x) : a ≤ b := by
  cases h with
  | below hle hhalf =>
    by_contra hlt
    have hsucc := cast_size_le.2 (Nat.succ_le_of_lt (Nat.lt_of_not_le hlt))
    have hgrow := cast_size_lt.2 (Nat.lt_succ_self b)
    linarith
  | above hle hhalf => exact cast_size_le.1 (hx.trans hle)

theorem Nearest.eq_of_size (h : Nearest (size a) b) : b = a :=
  Nat.le_antisymm (h.le (le_refl _)) (h.ge (le_refl _))

end DeviceGateway.Double
