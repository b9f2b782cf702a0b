import DeviceGateway.Json.Number
import DeviceGateway.Json.Reader
import DeviceGateway.Proofs.Text.Ascii
import Mathlib.Data.List.TakeWhile

/-!
# Whole numbers that are written can be read

A whole number is written as its decimal digits, without a zero in front. Reading them from the left
never meets a value above the number itself, so a reader with a limit gives the number back when it
is within the limit.
-/

namespace DeviceGateway

section
variable {s : List Char} {v limit : Nat}

theorem bounds_of_isDigit {c : Char} (h : c.isDigit = true) : '0' ≤ c ∧ c ≤ '9' := by
  simpa [Char.isDigit, Char.le_def] using h

theorem isAscii_of_isDigit {c : Char} (h : c.isDigit = true) : Text.IsAscii c :=
  Nat.lt_of_le_of_lt (bounds_of_isDigit h).2 (by decide)

theorem le_ofDigitChars (s : List Char) (v : Nat) : v ≤ Nat.ofDigitChars 10 s v := by
  induction s generalizing v with
  | nil => exact Nat.le_refl v
  | cons c s ih =>
    rw [Nat.ofDigitChars_cons]
    exact Nat.le_trans (by omega) (ih _)

theorem naturalFrom_eq_ofDigitChars (hs : ∀ c ∈ s, c.isDigit = true)
    (h : Nat.ofDigitChars 10 s v ≤ limit) :
    Text.naturalFrom limit v s = .ok (Nat.ofDigitChars 10 s v) := by
  induction s generalizing v with
  | nil => rfl
  | cons c s ih =>
    have hdigit : Text.digit? c = some (c.toNat - '0'.toNat) :=
      if_pos (bounds_of_isDigit (hs c List.mem_cons_self))
    rw [Nat.ofDigitChars_cons, Nat.mul_comm] at h ⊢
    -- Further digits only make the value larger, so it was within the limit before them.
    have hle : v * 10 + (c.toNat - '0'.toNat) ≤ limit := Nat.le_trans (le_ofDigitChars s _) h
    simp only [Text.naturalFrom, hdigit, if_neg (Nat.not_lt.2 hle)]
    exact ih (fun c hc => hs c (List.mem_cons_of_mem _ hc)) h

theorem absorb_eq_ofDigitChars {taken : Nat} (h : Nat.ofDigitChars 10 s v < UInt64.size) :
    Json.absorb v taken s = (Nat.ofDigitChars 10 s v, taken + s.length, 0) := by
  induction s generalizing v taken with
  | nil => rfl
  | cons c s ih =>
    rw [Nat.ofDigitChars_cons, Nat.mul_comm] at h ⊢
    have hlt : v * 10 + (c.toNat - '0'.toNat) < UInt64.size :=
      Nat.lt_of_le_of_lt (le_ofDigitChars s _) h
    simp only [Json.absorb, if_pos hlt]
    rw [ih h, List.length_cons, Nat.add_right_comm, Nat.add_assoc]

end

theorem toDigits_head_ne_zero {n : Nat} (h : 0 < n) :
    ∃ c rest, Nat.toDigits 10 n = c :: rest ∧ c ≠ '0' := by
  induction n using Nat.strongRecOn with
  | ind n ih =>
    by_cases hlt : n < 10
    · refine ⟨n.digitChar, [], Nat.toDigits_of_lt_base hlt, ?_⟩
      simpa using Nat.ne_of_gt h
    · rw [Nat.toDigits_of_base_le (by decide) (Nat.le_of_not_lt hlt)]
      obtain ⟨c, rest, heq, hc⟩ := ih (n / 10) (by omega) (by omega)
      exact ⟨c, rest ++ [(n % 10).digitChar], by rw [heq, List.cons_append], hc⟩

namespace Json

def digits (n : Nat) : Bytes := (Nat.toDigits 10 n).map Char.toUInt8

theorem isDigit_of_mem_toDigits {n : Nat} {c : Char} (h : c ∈ Nat.toDigits 10 n) :
    c.isDigit = true :=
  Nat.isDigit_of_mem_toDigits (by decide) (by decide) h

theorem map_ofUInt8_digits (n : Nat) : (digits n).map Char.ofUInt8 = Nat.toDigits 10 n := by
  rw [digits, List.map_map]
  refine (List.map_congr_left fun c hc => ?_).trans (List.map_id _)
  exact Text.ofUInt8_toUInt8 (isAscii_of_isDigit (isDigit_of_mem_toDigits hc))

theorem natural?_ofNat {n limit : Nat} (h : n ≤ limit) :
    (Value.ofNat n).natural? limit = some n := by
  have hread := @naturalFrom_eq_ofDigitChars (Nat.toDigits 10 n) 0 limit
    (fun _ => isDigit_of_mem_toDigits)
  rw [Nat.ofDigitChars_ten_toDigits] at hread
  rw [Value.ofNat, ← digits, Value.natural?, map_ofUInt8_digits, hread h]

theorem isFiniteNumber_digits {n : Nat} (h : n < UInt64.size) :
    isFiniteNumber (digits n) = true := by
  have hdigit : ∀ c ∈ Nat.toDigits 10 n, isDigit c = true := fun c hc => by
    simpa [isDigit] using bounds_of_isDigit (isDigit_of_mem_toDigits hc)
  have hsign : (Nat.toDigits 10 n).dropWhile (· == '-') = Nat.toDigits 10 n := by
    refine List.dropWhile_eq_self_iff.2 fun hl hminus => ?_
    have hc := isDigit_of_mem_toDigits (List.getElem_mem hl)
    rw [beq_iff_eq.1 hminus] at hc
    cases hc
  have habsorb : absorb 0 0 (Nat.toDigits 10 n) = (n, (Nat.toDigits 10 n).length, 0) := by
    have := @absorb_eq_ofDigitChars (Nat.toDigits 10 n) 0 0
    rw [Nat.ofDigitChars_ten_toDigits] at this
    simpa using this h
  have hwhole : (Nat.toDigits 10 n).takeWhile isDigit = Nat.toDigits 10 n :=
    List.takeWhile_eq_self_iff.2 hdigit
  have hrest : (Nat.toDigits 10 n).dropWhile isDigit = [] := List.dropWhile_eq_nil_iff.2 hdigit
  simp only [isFiniteNumber, map_ofUInt8_digits, hsign, hwhole, hrest, powerOf, isFiniteDecimal,
    habsorb, absorb, isFiniteProduct]
  simp

def NumberPart.first? (c : Char) : Option NumberPart :=
  if c = '-' then some .minus
  else if c = '0' then some .zero
  else if '1' ≤ c ∧ c ≤ '9' then some .whole
  else none

def NumberPart.after? (p : NumberPart) (raw : Bytes) : Option NumberPart :=
  raw.foldlM (fun p b => p.next? (Char.ofUInt8 b)) p

inductive IsNumeral : Bytes → Prop
  | intro {b : UInt8} {rest : Bytes} {p q : NumberPart}
      (hfirst : NumberPart.first? (Char.ofUInt8 b) = some p) (hrest : p.after? rest = some q)
      (hend : q.mayEnd = true) : IsNumeral (b :: rest)

theorem after?_whole {s : List Char} (h : ∀ c ∈ s, c.isDigit = true) :
    NumberPart.whole.after? (s.map Char.toUInt8) = some .whole := by
  induction s with
  | nil => rfl
  | cons c s ih =>
    have hc : c.isDigit = true := h c List.mem_cons_self
    have hnext : NumberPart.whole.next? c = some .whole := by
      simp [NumberPart.next?, bounds_of_isDigit hc]
    rw [List.map_cons, NumberPart.after?, List.foldlM_cons,
      Text.ofUInt8_toUInt8 (isAscii_of_isDigit hc), hnext]
    exact ih fun c hc => h c (List.mem_cons_of_mem _ hc)

theorem isNumeral_digits (n : Nat) : IsNumeral (digits n) := by
  rcases Nat.eq_zero_or_pos n with rfl | hpos
  · exact .intro (p := .zero) (q := .zero) rfl rfl rfl
  · obtain ⟨c, rest, heq, hzero⟩ := toDigits_head_ne_zero hpos
    have hdigit : ∀ x ∈ c :: rest, x.isDigit = true := fun x hx =>
      isDigit_of_mem_toDigits (heq ▸ hx)
    have hc : c.isDigit = true := hdigit c List.mem_cons_self
    have hone : '1' ≤ c := by
      have hge : 48 ≤ c.toNat := (bounds_of_isDigit hc).1
      have hne : c.toNat ≠ 48 := fun h => hzero (Char.toNat_inj.1 h)
      exact Nat.lt_of_le_of_ne hge hne.symm
    have hminus : c ≠ '-' := by
      rintro rfl
      cases hc
    have hfirst : NumberPart.first? c = some .whole := by
      rw [NumberPart.first?, if_neg hminus, if_neg hzero, if_pos ⟨hone, (bounds_of_isDigit hc).2⟩]
    rw [digits, heq, List.map_cons]
    refine .intro ?_ (after?_whole fun x hx => hdigit x (List.mem_cons_of_mem _ hx)) rfl
    rw [Text.ofUInt8_toUInt8 (isAscii_of_isDigit hc)]
    exact hfirst

end Json

end DeviceGateway
