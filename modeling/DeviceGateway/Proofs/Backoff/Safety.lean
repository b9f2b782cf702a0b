import DeviceGateway.Proofs.Backoff.Seconds

/-!
# The waits of a validated policy

Validation leaves a factor of one or more and a longest interval that the first does not exceed;
every interval can then be worked out and is at most the longest one. A randomization that is no
number stays, and no random wait can be drawn with it. With any other one a random wait can be
drawn unless its upper bound reaches `2 ^ 64` seconds, as the longest durations do by themselves:
they are rounded up to it.
-/

namespace DeviceGateway.Backoff

open Double (bits size unit power2 infinite)

theorem bits_lt_of_one_le {x : Float} (h : 1.0 ≤ x) : bits x < 2 ^ 63 := by
  obtain ⟨-, -, hkey⟩ := Double.le_iff.1 h
  have hone : 0 < Double.key (bits 1.0) := by decide
  by_contra hge
  have hsigned := Double.key_nonpos (Nat.not_lt.1 hge)
  omega

theorem bits_powerFrom {r x : Float} (hr : bits r < 2 ^ 63) (hx : bits x < 2 ^ 63) (n : Nat) :
    bits (powerFrom r x n) < 2 ^ 63 := by
  have hfactor {r x : Float} (hr : bits r < 2 ^ 63) (hx : bits x < 2 ^ 63) (n : Nat) :
      bits (if n % 2 = 1 then r * x else r) < 2 ^ 63 := by
    split
    · exact Double.bits_mul_lt hr hx
    · exact hr
  fun_induction powerFrom r x n with
  | case1 r x n _ hend => exact hfactor hr hx n
  | case2 r x n _ hmore ih => exact ih (hfactor hr hx n) (Double.bits_mul_lt hx hx)

theorem bits_power {x : Float} (hx : bits x < 2 ^ 63) (n : Nat) : bits (power x n) < 2 ^ 63 :=
  bits_powerFrom (by decide) hx n

theorem power_zero (x : Float) : power x 0 = 1.0 := by
  rw [power, powerFrom]
  rfl

namespace Policy

theorem one_le_multiplier (p : Policy) : 1.0 ≤ p.validated.multiplier := by
  simp only [validated]
  split
  · assumption
  · decide

theorem initial_le_longest (p : Policy) :
    p.validated.initial.nanos ≤ p.validated.longest.nanos := by
  simp only [validated]
  split
  · exact le_refl _
  · rename_i h
    exact Nat.not_lt.1 h

theorem randomization_bounds_iff (p : Policy) :
    (0.0 ≤ p.validated.randomization ∧ p.validated.randomization ≤ 1.0) ↔
      p.randomization.isNaN = false := by
  have hzero : (0.0 : Float).isNaN = false := by decide
  have hone : (1.0 : Float).isNaN = false := by decide
  simp only [validated]
  split
  · rename_i hlow
    exact iff_of_true (by decide) (Double.lt_iff.1 hlow).1
  · rename_i hlow
    split
    · rename_i hhigh
      exact iff_of_true (by decide) (Double.lt_iff.1 hhigh).2.1
    · rename_i hhigh
      exact ⟨fun h => (Double.le_iff.1 h.1).2.1, fun hnumber =>
        ⟨Double.le_of_not_lt hnumber hzero hlow, Double.le_of_not_lt hone hnumber hhigh⟩⟩

theorem isNaN_validated (p : Policy) (h : p.randomization.isNaN = true) :
    p.validated.randomization.isNaN = true := by
  have hlow : ¬p.randomization < 0.0 := fun hlt =>
    Bool.noConfusion (h.symm.trans (Double.lt_iff.1 hlt).1)
  have hhigh : ¬1.0 < p.randomization := fun hlt =>
    Bool.noConfusion (h.symm.trans (Double.lt_iff.1 hlt).2.1)
  simp only [validated, hlow, hhigh, if_false, h]

theorem ofSeconds_answers_iff {x : Float} :
    (∃ d, ofSeconds x = .answer d) ↔ (Duration.ofSeconds? x).isSome = true := by
  rw [ofSeconds]
  cases Duration.ofSeconds? x <;> simp

variable {q : Policy}

theorem interval_zero :
    q.interval 0 =
      if !(q.initial.seconds * 1.0).isFinite || q.longest.seconds ≤ q.initial.seconds * 1.0 then
        .answer q.longest
      else ofSeconds (q.initial.seconds * 1.0) := by
  rw [interval, Nat.zero_min, power_zero]

theorem interval_answers (hmultiplier : bits q.multiplier < 2 ^ 63) (attempt : Nat) :
    ∃ d, q.interval attempt = .answer d ∧ d.nanos ≤ q.longest.nanos := by
  have hinitial := q.initial.bits_seconds_le
  have hsecs : bits (q.initial.seconds * power q.multiplier (min attempt lastAttempt)) < 2 ^ 63 :=
    Double.bits_mul_lt (hinitial.trans_lt (by decide)) (bits_power hmultiplier _)
  simp only [interval]
  generalize q.initial.seconds * power q.multiplier (min attempt lastAttempt) = secs at hsecs ⊢
  split
  · exact ⟨_, rfl, le_refl _⟩
  · rename_i hshort
    rw [Bool.or_eq_true, not_or, Bool.not_eq_true', Bool.not_eq_false, decide_eq_true_iff,
      Double.isFinite_iff hsecs] at hshort
    obtain ⟨hfinite, hshort⟩ := hshort
    have hlongest := q.longest.bits_seconds_le
    have hlt : bits secs < bits q.longest.seconds := by
      rw [Double.le_iff_bits (hlongest.trans_lt (by decide)) hfinite] at hshort
      exact Nat.lt_of_not_le hshort
    have hsome := (Duration.ofSeconds?_isSome_iff hsecs).2 (hlt.trans_le hlongest)
    obtain ⟨d, hd⟩ := Option.isSome_iff_exists.1 hsome
    exact ⟨d, by rw [ofSeconds, hd], Duration.nanos_le_of_bits_lt hd hlt⟩

def Draws (draw : Float → Float → Float) : Prop :=
  ∀ low high, low ≤ high → low ≤ draw low high ∧ draw low high ≤ high

theorem draws_high : Draws fun _ high => high := fun _ _ h =>
  ⟨h, Double.le_iff.2 ⟨(Double.le_iff.1 h).2.1, (Double.le_iff.1 h).2.1, le_refl _⟩⟩

theorem bounds_around {b r : Float} {j : Nat} (hb : bits b ≤ power2 j) (hj : power2 j < infinite)
    (hr : bits r ≤ power2 0) :
    bits (b - b * r) ≤ bits b ∧ bits b ≤ bits (b + b * r) ∧ bits (b + b * r) ≤ power2 (j + 1) := by
  have hbfinite : bits b < infinite := hb.trans_lt hj
  have hrfinite : bits r < infinite := hr.trans_lt (by decide)
  have hunit : (0 : ℚ) < unit := Nat.cast_pos.2 Double.unit_pos
  have hshare : bits (b * r) ≤ bits b := by
    refine (Double.rounds_mul hbfinite hrfinite).le ?_
    have hone := Double.cast_size_le.2 hr
    rw [Double.size_power2_zero] at hone
    rw [div_le_iff₀ hunit]
    exact mul_le_mul_of_nonneg_left hone (Nat.cast_nonneg _)
  have hsum := Double.rounds_add hbfinite (hshare.trans_lt hbfinite)
  have hsize := Double.cast_size_le.2 hshare
  have hpos : (0 : ℚ) ≤ size (bits (b * r)) := Nat.cast_nonneg _
  refine ⟨(Double.rounds_sub hbfinite hshare).le (by linarith), hsum.ge (by linarith) hbfinite.le,
    hsum.le ?_⟩
  have htop := Double.cast_size_le.2 hb
  rw [Double.size_power2] at htop ⊢
  rw [Nat.pow_succ]
  push_cast at htop ⊢
  linarith

theorem band_eq {b : Float} (hb : bits b ≤ power2 64) (hr : bits q.randomization ≤ power2 0) :
    q.band b = .answer (b - b * q.randomization, b + b * q.randomization) := by
  obtain ⟨hlow, hhigh, htop⟩ := bounds_around hb (by decide) hr
  have hbfinite : bits b < infinite := hb.trans_lt (by decide)
  have hhighfinite := htop.trans_lt (show power2 65 < infinite by decide)
  have hwidth : bits (b + b * q.randomization - (b - b * q.randomization)) < infinite := by
    refine ((Double.rounds_sub hhighfinite (hlow.trans hhigh)).le ?_).trans_lt hhighfinite
    have hpos : (0 : ℚ) ≤ size (bits (b - b * q.randomization)) := Nat.cast_nonneg _
    linarith
  have horder : b - b * q.randomization ≤ b + b * q.randomization :=
    (Double.le_iff_bits (hlow.trans_lt hbfinite) hhighfinite).2 (hlow.trans hhigh)
  have hfinite := (Double.isFinite_iff (hwidth.trans (by decide))).2 hwidth
  simp only [band, horder, hfinite, decide_true, Bool.and_self, if_true]

theorem band_of_isNaN (b : Float) (h : q.randomization.isNaN = true) : q.band b = .crash := by
  have horder : ¬b - b * q.randomization ≤ b + b * q.randomization := fun hle => by
    have hhigh := (Double.le_iff.1 hle).2.1
    rw [Double.isNaN_add (Double.isNaN_mul h)] at hhigh
    exact Bool.noConfusion hhigh
  simp only [band, horder, decide_false, Bool.false_and, Bool.false_eq_true, if_false]

theorem ofSeconds_of_le {secs high : Float} (hle : secs ≤ high) (hhigh : bits high < power2 64) :
    ∃ d, ofSeconds (if secs < 0.0 then 0.0 else secs) = .answer d := by
  obtain ⟨hnumber, -, hkey⟩ := Double.le_iff.1 hle
  rw [ofSeconds_answers_iff]
  split
  · decide
  · rename_i hpos
    have hzero : 0 ≤ Double.key (bits secs) :=
      (Double.le_iff.1 (Double.le_of_not_lt hnumber (by decide) hpos)).2.2
    rw [Double.key_of_lt (hhigh.trans (by decide))] at hkey
    rcases Nat.lt_or_ge (bits secs) (2 ^ 63) with hlt | hge
    · rw [Double.key_of_lt hlt] at hkey
      rw [Duration.ofSeconds?_isSome_iff hlt]
      omega
    · have hsigned : bits secs = 2 ^ 63 := by
        simp only [Double.key] at hzero
        split at hzero <;> omega
      rw [Duration.ofSeconds?_negativeZero hsigned]
      rfl

theorem jittered_still {d : Duration} {attempt : Nat} (hd : q.interval attempt = .answer d)
    (hstill : (q.randomization == 0.0 || d.seconds == 0.0) = true) (draw : Float → Float → Float) :
    q.jittered draw attempt = ofSeconds d.seconds := by
  simp only [jittered, hd, hstill, if_true]

theorem jittered_of_band {d : Duration} {attempt : Nat} {low high : Float}
    (hd : q.interval attempt = .answer d)
    (hmoving : (q.randomization == 0.0 || d.seconds == 0.0) = false)
    (hband : q.band d.seconds = .answer (low, high)) (draw : Float → Float → Float) :
    q.jittered draw attempt =
      ofSeconds (if draw low high < 0.0 then 0.0 else draw low high) := by
  simp only [jittered, hd, hmoving, Bool.false_eq_true, if_false, hband]

theorem jittered_of_crash {d : Duration} {attempt : Nat} (hd : q.interval attempt = .answer d)
    (hmoving : (q.randomization == 0.0 || d.seconds == 0.0) = false)
    (hband : q.band d.seconds = .crash) (draw : Float → Float → Float) :
    q.jittered draw attempt = .crash := by
  simp only [jittered, hd, hmoving, Bool.false_eq_true, if_false, hband]

def Waits (q : Policy) (attempt : Nat) : Prop :=
  ∀ draw, Draws draw → ∃ w, q.jittered draw attempt = .answer w

variable {d : Duration} {attempt : Nat}

theorem waits_iff_of_still (hd : q.interval attempt = .answer d)
    (hstill : (q.randomization == 0.0 || d.seconds == 0.0) = true) :
    q.Waits attempt ↔ bits d.seconds < power2 64 := by
  have hunsigned : bits d.seconds < 2 ^ 63 := d.bits_seconds_le.trans_lt (by decide)
  rw [← Duration.ofSeconds?_isSome_iff hunsigned, ← ofSeconds_answers_iff]
  constructor
  · intro h
    obtain ⟨w, hw⟩ := h _ draws_high
    exact ⟨w, jittered_still hd hstill _ ▸ hw⟩
  · rintro ⟨w, hw⟩ draw -
    exact ⟨w, (jittered_still hd hstill draw).trans hw⟩

theorem waits_of_zero (hd : q.interval attempt = .answer d) (hzero : (d.seconds == 0.0) = true) :
    q.Waits attempt := by
  have hfinite : bits d.seconds < infinite := d.bits_seconds_le.trans_lt (by decide)
  rw [waits_iff_of_still hd (by rw [hzero, Bool.or_true]), (Double.beq_zero_iff hfinite).1 hzero]
  decide

theorem waits_iff_of_band (hd : q.interval attempt = .answer d)
    (hmoving : (q.randomization == 0.0 || d.seconds == 0.0) = false)
    (hr : bits q.randomization ≤ power2 0) :
    q.Waits attempt ↔ bits (d.seconds + d.seconds * q.randomization) < power2 64 := by
  have hb := d.bits_seconds_le
  obtain ⟨hlow, hhigh, htop⟩ := bounds_around hb (by decide) hr
  have hjittered := jittered_of_band hd hmoving (band_eq hb hr)
  have hunsigned := htop.trans_lt (show power2 65 < 2 ^ 63 by decide)
  have horder : d.seconds - d.seconds * q.randomization ≤ d.seconds + d.seconds * q.randomization :=
    (Double.le_iff_bits (hlow.trans_lt (hb.trans_lt (by decide))) (htop.trans_lt (by decide))).2
      (hlow.trans hhigh)
  constructor
  · intro h
    -- The upper bound itself may be drawn.
    obtain ⟨w, hw⟩ := h _ draws_high
    have hpos : ¬d.seconds + d.seconds * q.randomization < 0.0 := by
      rw [Double.lt_iff_bits (htop.trans_lt (by decide)) (by decide)]
      exact Nat.not_lt_zero _
    rw [hjittered, if_neg hpos] at hw
    exact (Duration.ofSeconds?_isSome_iff hunsigned).1 (ofSeconds_answers_iff.1 ⟨w, hw⟩)
  · intro h draw hdraw
    rw [hjittered]
    exact ofSeconds_of_le (hdraw _ _ horder).2 h

theorem bits_le_of_between {r : Float} (hlow : 0.0 ≤ r) (hhigh : r ≤ 1.0)
    (hne : (r == 0.0) = false) : bits r ≤ power2 0 := by
  obtain ⟨hzero, hnumber, hlow⟩ := Double.le_iff.1 hlow
  have hhigh : Double.key (bits r) ≤ power2 0 := (Double.le_iff.1 hhigh).2.2
  have hkey : Double.key (bits 0.0) = 0 := by decide
  rw [hkey] at hlow
  rcases Nat.lt_or_ge (bits r) (2 ^ 63) with hlt | hge
  · rw [Double.key_of_lt hlt] at hhigh
    exact Int.ofNat_le.1 hhigh
  · have hsame : (r == 0.0) = true :=
      Double.beq_iff.2 ⟨hnumber, hzero, hkey ▸ Int.le_antisymm (Double.key_nonpos hge) hlow⟩
    rw [hne] at hsame
    exact Bool.noConfusion hsame

theorem lt_limit_iff {x : Float} (hx : bits x < infinite) :
    x < 18446744073709551616.0 ↔ bits x < power2 64 := by
  have hlimit : bits 18446744073709551616.0 = power2 64 := by decide
  rw [Double.lt_iff_bits hx (by decide), hlimit]

theorem waits_iff (hd : q.interval attempt = .answer d) (hlow : 0.0 ≤ q.randomization)
    (hhigh : q.randomization ≤ 1.0) :
    q.Waits attempt ↔ (d.seconds == 0.0) = true ∨
      d.seconds + d.seconds * q.randomization < 18446744073709551616.0 := by
  have hb := d.bits_seconds_le
  have hfinite : bits d.seconds < infinite := hb.trans_lt (by decide)
  cases hzero : d.seconds == 0.0 with
  | true => exact iff_of_true (waits_of_zero hd hzero) (.inl rfl)
  | false =>
    rw [or_iff_right Bool.false_ne_true]
    cases hr : q.randomization == 0.0 with
    | true =>
      have hpos : 0 < bits d.seconds := by
        rw [← Bool.not_eq_true, Double.beq_zero_iff hfinite] at hzero
        exact Nat.pos_of_ne_zero hzero
      have hsame := Double.bits_add_mul_zero hfinite hpos hr
      rw [waits_iff_of_still hd (by rw [hr, Bool.true_or]), lt_limit_iff (hsame ▸ hfinite), hsame]
    | false =>
      have hshare := bits_le_of_between hlow hhigh hr
      have htop := (bounds_around hb (by decide) hshare).2.2
      rw [waits_iff_of_band hd (by rw [hr, hzero, Bool.or_false]) hshare,
        lt_limit_iff (htop.trans_lt (by decide))]

theorem waits_iff_of_isNaN (hd : q.interval attempt = .answer d)
    (hnone : q.randomization.isNaN = true) :
    q.Waits attempt ↔ (d.seconds == 0.0) = true ∨
      d.seconds + d.seconds * q.randomization < 18446744073709551616.0 := by
  have hr : (q.randomization == 0.0) = false := by
    rw [← Bool.not_eq_true, Double.beq_iff, hnone]
    exact fun h => Bool.noConfusion h.1
  have hlimit : ¬d.seconds + d.seconds * q.randomization < 18446744073709551616.0 := fun h => by
    have hsum := (Double.lt_iff.1 h).1
    rw [Double.isNaN_add (Double.isNaN_mul hnone)] at hsum
    exact Bool.noConfusion hsum
  rw [or_iff_left hlimit]
  cases hzero : d.seconds == 0.0 with
  | true => exact iff_of_true (waits_of_zero hd hzero) rfl
  | false =>
    have hcrash := jittered_of_crash hd (by rw [hr, hzero, Bool.or_false]) (band_of_isNaN _ hnone)
    refine iff_of_false (fun h => ?_) Bool.false_ne_true
    obtain ⟨w, hw⟩ := h _ draws_high
    exact nomatch (hcrash _).symm.trans hw

/-- A validated policy is safe but for two things: a randomization that is no number stays as it
is, and a random wait may reach past the longest duration. -/
theorem validated_safe_iff (p : Policy) :
    1.0 ≤ p.validated.multiplier ∧ p.validated.initial.nanos ≤ p.validated.longest.nanos ∧
      ((0.0 ≤ p.validated.randomization ∧ p.validated.randomization ≤ 1.0) ↔
        p.randomization.isNaN = false) ∧
      ∀ attempt, ∃ d, p.validated.interval attempt = .answer d ∧
        d.nanos ≤ p.validated.longest.nanos ∧
        (p.validated.Waits attempt ↔ (d.seconds == 0.0) = true ∨
          d.seconds + d.seconds * p.validated.randomization < 18446744073709551616.0) := by
  refine ⟨p.one_le_multiplier, p.initial_le_longest, p.randomization_bounds_iff, fun attempt => ?_⟩
  obtain ⟨d, hd, hle⟩ := interval_answers (bits_lt_of_one_le p.one_le_multiplier) attempt
  refine ⟨d, hd, hle, ?_⟩
  cases hnone : p.randomization.isNaN with
  | false =>
    obtain ⟨hlow, hhigh⟩ := p.randomization_bounds_iff.2 hnone
    exact waits_iff hd hlow hhigh
  | true => exact waits_iff_of_isNaN hd (p.isNaN_validated hnone)

/-- One policy for each of the two; the other has no jitter at all. -/
theorem validated_unsafe :
    (∃ p : Policy, ¬(0.0 ≤ p.validated.randomization ∧ p.validated.randomization ≤ 1.0) ∧
      p.validated.jittered (fun low _ => low) 0 = .crash) ∧
    ∃ p : Policy, p.randomization = 0.0 ∧ p.validated.jittered (fun low _ => low) 0 = .crash := by
  refine ⟨⟨{ randomization := 0.0 / 0.0 }, by decide, ?_⟩,
    ⟨{ initial := .ofSecs UInt64.size
       longest := .ofSecs UInt64.size
       randomization := 0.0 }, rfl, ?_⟩⟩
  · rw [jittered, interval_zero]
    rfl
  · rw [jittered, interval_zero]
    rfl

end Policy

end DeviceGateway.Backoff
