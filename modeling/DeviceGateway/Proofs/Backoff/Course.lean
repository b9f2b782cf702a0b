import DeviceGateway.Backoff.Retry

/-!
# What a retry comes to

How each attempt would end, what it would cost and the wait that would be drawn after it are given
beforehand, and with them the instant at which it would begin. The retry makes the attempts one
after another up to the first that succeeds or whose wait there is no more patience for. As every
wait takes some of the patience, this bounds the number of attempts. Patience is compared with the
waits and not with their timers, so an attempt may begin in the millisecond after it is over.
-/

namespace DeviceGateway.Backoff

/-- The waits, the ends and the costs of all attempts, whether they are made or not. -/
structure Course where
  policy : Policy
  clock : Clock
  start : Nat
  wait : Nat → Duration
  outcome : Nat → Option String
  cost : Nat → Nat

namespace Course
variable {c : Course} {r : Report} {i n fuel d : Nat}

def goOn (c : Course) (fuel : Nat) (t : Trial) : Option Report :=
  retryFrom c.policy c.clock c.start (fun i => .answer (c.wait i)) c.outcome c.cost fuel t

def report? (c : Course) (fuel : Nat) : Option Report := c.goOn fuel ⟨c.start, 0, []⟩

theorem report?_eq_retry {draw : Float → Float → Float} {cost : Nat → Nat}
    (hclock : c.clock = .paused) (hstart : c.start = 0)
    (hcost : ∀ i, c.cost i = cost i * Duration.milli)
    (hdraw : ∀ i, c.policy.jittered draw i = .answer (c.wait i)) (varied : Nat) :
    retry c.policy draw c.outcome cost varied =
      c.report? (varied + c.policy.patience.nanos / Duration.milli + 2) := by
  rw [retry, report?, goOn, funext hdraw, funext hcost, hclock, hstart]

/-- The instant at which an attempt begins: when the timer of the wait before it fires. -/
def begins (c : Course) : Nat → Nat
  | 0 => c.start
  | i + 1 => c.clock.wake (c.begins i + c.cost i) (c.begins i + c.cost i + (c.wait i).nanos)

def ends (c : Course) (i : Nat) : Nat := c.begins i + c.cost i

def total (c : Course) (i : Nat) : Nat := c.ends i - c.start + (c.wait i).nanos

def Fits (c : Course) (i : Nat) : Prop :=
  c.policy.patience.nanos = 0 ∨ c.total i ≤ c.policy.patience.nanos

/-- The attempt `n` is made: all attempts before it fail and there is patience for their waits. -/
def Made (c : Course) (n : Nat) : Prop := ∀ i < n, c.outcome i ≠ none ∧ c.Fits i

def Last (c : Course) (n : Nat) : Prop := c.Made n ∧ (c.outcome n = none ∨ ¬c.Fits n)

/-- No sum that the retry forms is too large: neither a duration nor the end of a sleep. -/
def Tellable (c : Course) : Prop :=
  ∀ i, c.Made i → c.outcome i ≠ none → c.total i < UInt64.size * Duration.second ∧
    (c.Fits i → c.ends i + (c.wait i).nanos < c.clock.horizon)

def notices (c : Course) : Nat → List (String × Duration)
  | 0 => []
  | n + 1 =>
    match c.outcome n with
    | some e => (e, c.wait n) :: c.notices n
    | none => c.notices n

def trial (c : Course) (n : Nat) : Trial := ⟨c.begins n, n, c.notices n⟩

def closing (c : Course) (n : Nat) : Trial := ⟨c.ends n, n + 1, c.notices n⟩

theorem Made.of_le (h : c.Made n) (hi : i ≤ n) : c.Made i :=
  fun j hj => h j (Nat.lt_of_lt_of_le hj hi)

theorem made_zero (c : Course) : c.Made 0 := fun i hi => absurd hi (Nat.not_lt_zero i)

theorem made_succ_iff : c.Made (n + 1) ↔ c.Made n ∧ c.outcome n ≠ none ∧ c.Fits n := by
  constructor
  · intro h
    exact ⟨h.of_le (Nat.le_succ n), h n (Nat.lt_succ_self n)⟩
  · intro ⟨h, hn⟩ i hi
    by_cases hin : i = n
    · rwa [hin]
    · exact h i (by omega)

theorem Last.made (h : c.Last n) : c.Made n := h.1

theorem exists_last (h : ¬c.Made n) : ∃ k < n, c.Last k := by
  induction n with
  | zero => exact absurd c.made_zero h
  | succ n ih =>
    by_cases hn : c.Made n
    · refine ⟨n, Nat.lt_succ_self n, hn, ?_⟩
      by_cases hok : c.outcome n = none
      · exact .inl hok
      · exact .inr fun hfits => h (made_succ_iff.2 ⟨hn, hok, hfits⟩)
    · obtain ⟨k, hk, hlast⟩ := ih hn
      exact ⟨k, Nat.lt_succ_of_lt hk, hlast⟩

theorem next_of_fits (htell : c.Tellable) (hmade : c.Made n) (hfail : c.outcome n ≠ none)
    (hfits : c.Fits n) :
    c.policy.next (c.ends n - c.start) (.answer (c.wait n)) = .wait (c.wait n) := by
  have hsum := (htell n hmade hfail).1
  simp only [Policy.next]
  split
  · rfl
  · rename_i hpatience
    have hle := hfits.resolve_left hpatience
    simp only [total] at hle hsum
    rw [if_neg (by omega), if_neg (by omega)]

theorem next_of_not_fits (htell : c.Tellable) (hmade : c.Made n) (hfail : c.outcome n ≠ none)
    (hfits : ¬c.Fits n) :
    c.policy.next (c.ends n - c.start) (.answer (c.wait n)) = .giveUp := by
  have hsum := (htell n hmade hfail).1
  obtain ⟨hpatience, hlt⟩ := not_or.1 hfits
  simp only [total] at hlt hsum
  simp only [Policy.next]
  rw [if_neg hpatience, if_neg (by omega), if_pos (by omega)]

theorem sleep_ends (htell : c.Tellable) (hmade : c.Made n) (hfail : c.outcome n ≠ none)
    (hfits : c.Fits n) : c.clock.sleep (c.ends n) (c.wait n) = c.begins (n + 1) := by
  rw [Clock.sleep, if_pos ((htell n hmade hfail).2 hfits)]
  rfl

theorem goOn_of_fits (htell : c.Tellable) (hmade : c.Made (n + 1)) (fuel : Nat) :
    c.goOn (fuel + 1) (c.trial n) = c.goOn fuel (c.trial (n + 1)) := by
  obtain ⟨hn, hfail, hfits⟩ := made_succ_iff.1 hmade
  obtain ⟨e, he⟩ := Option.ne_none_iff_exists'.1 hfail
  have hnext := next_of_fits htell hn hfail hfits
  have hsleep := sleep_ends htell hn hfail hfits
  simp only [ends] at hnext hsleep
  simp only [goOn, trial, retryFrom, he, hnext, hsleep, notices]

theorem goOn_of_success (hok : c.outcome n = none) (fuel : Nat) :
    c.goOn (fuel + 1) (c.trial n) = some ⟨.answer (.ok ()), c.closing n⟩ := by
  simp only [goOn, trial, retryFrom, hok, closing, ends]

theorem goOn_of_not_fits (htell : c.Tellable) (hmade : c.Made n) (hfits : ¬c.Fits n) {e : String}
    (he : c.outcome n = some e) (fuel : Nat) :
    c.goOn (fuel + 1) (c.trial n) = some ⟨.answer (.error e), c.closing n⟩ := by
  have hnext := next_of_not_fits htell hmade (by simp [he]) hfits
  simp only [ends] at hnext
  simp only [goOn, trial, retryFrom, he, hnext, closing, ends]

theorem report?_of_made (htell : c.Tellable) (hmade : c.Made n) (fuel : Nat) :
    c.report? (n + fuel) = c.goOn fuel (c.trial n) := by
  induction n generalizing fuel with
  | zero =>
    rw [Nat.zero_add]
    rfl
  | succ n ih =>
    rw [Nat.succ_add_eq_add_succ, ih (hmade.of_le (Nat.le_succ n)), goOn_of_fits htell hmade]

theorem length_notices (hmade : c.Made n) : (c.notices n).length = n := by
  induction n with
  | zero => rfl
  | succ n ih =>
    obtain ⟨hn, hfail, -⟩ := made_succ_iff.1 hmade
    obtain ⟨e, he⟩ := Option.ne_none_iff_exists'.1 hfail
    simp [notices, he, ih hn]

theorem notice (hmade : c.Made n) (hi : i < n) :
    ∃ e, c.outcome i = some e ∧ (c.notices n).reverse[i]? = some (e, c.wait i) := by
  induction n with
  | zero => exact absurd hi (Nat.not_lt_zero i)
  | succ n ih =>
    obtain ⟨hn, hfail, -⟩ := made_succ_iff.1 hmade
    obtain ⟨e, he⟩ := Option.ne_none_iff_exists'.1 hfail
    have hlength : (c.notices n).reverse.length = n := by
      rw [List.length_reverse, length_notices hn]
    simp only [notices, he, List.reverse_cons]
    by_cases hin : i = n
    · subst hin
      refine ⟨e, he, ?_⟩
      rw [List.getElem?_append_right (by omega), hlength, Nat.sub_self]
      rfl
    · rw [List.getElem?_append_left (by omega)]
      exact ih hn (by omega)

/-- The report of a retry whose last attempt was `n`. -/
structure Accounts (c : Course) (n : Nat) (r : Report) : Prop where
  made : c.Made n
  calls : r.trial.calls = r.trial.notices.length + 1
  length : r.trial.notices.length = n
  notice : ∀ i < n, ∃ e, c.outcome i = some e ∧
    r.trial.notices.reverse[i]? = some (e, c.wait i)
  instant : r.trial.instant = c.ends n
  success : r.result = .answer (.ok ()) ↔ c.outcome n = none
  failure : ∀ e, r.result = .answer (.error e) ↔ c.outcome n = some e
  gaveUp : c.outcome n ≠ none →
    c.policy.patience.nanos ≠ 0 ∧ c.policy.patience.nanos < c.total n

theorem Last.exists_report (htell : c.Tellable) (h : c.Last n) (hn : n < fuel) :
    ∃ r, c.report? fuel = some r ∧ c.Accounts n r := by
  obtain ⟨k, rfl⟩ : ∃ k, fuel = n + (k + 1) := ⟨fuel - n - 1, by omega⟩
  rw [report?_of_made htell h.made]
  have hlength : (c.closing n).notices.length = n := length_notices h.made
  have hnotice : ∀ i < n, ∃ e, c.outcome i = some e ∧
      (c.closing n).notices.reverse[i]? = some (e, c.wait i) := fun i hi => notice h.made hi
  have hcalls : (c.closing n).calls = (c.closing n).notices.length + 1 := by
    rw [hlength]
    rfl
  cases he : c.outcome n with
  | none =>
    refine ⟨_, goOn_of_success he k, h.made, hcalls, hlength, hnotice, rfl, ?_, ?_, ?_⟩
    · simp [he]
    · simp [he]
    · simp [he]
  | some e =>
    have hfits : ¬c.Fits n := h.2.resolve_left (by simp [he])
    refine ⟨_, goOn_of_not_fits htell h.made hfits he k, h.made, hcalls, hlength, hnotice, rfl,
      ?_, ?_, fun _ => ?_⟩
    · simp [he]
    · simp [he]
    · obtain ⟨hpatience, hlt⟩ := not_or.1 hfits
      exact ⟨hpatience, Nat.not_le.1 hlt⟩

theorem exists_accounts (htell : c.Tellable) (h : c.report? fuel = some r) :
    ∃ n < fuel, c.Accounts n r := by
  by_cases hmade : c.Made fuel
  · have hnone : c.report? fuel = none := report?_of_made htell hmade 0
    rw [hnone] at h
    cases h
  · obtain ⟨n, hn, hlast⟩ := exists_last hmade
    obtain ⟨r', hr', haccounts⟩ := hlast.exists_report htell hn
    rw [hr'] at h
    cases h
    exact ⟨n, hn, haccounts⟩

theorem ends_le_begins (c : Course) (n : Nat) : c.ends n + (c.wait n).nanos ≤ c.begins (n + 1) :=
  c.clock.le_wake (Nat.le_add_right _ _)

theorem start_add_le_begins (hwait : ∀ i, d ≤ (c.wait i).nanos) (n : Nat) :
    c.start + n * d ≤ c.begins n := by
  induction n with
  | zero => simp [begins]
  | succ n ih =>
    have hd := hwait n
    calc c.start + (n + 1) * d = c.start + n * d + d := by rw [Nat.succ_mul, Nat.add_assoc]
      _ ≤ c.begins n + (c.wait n).nanos := Nat.add_le_add ih hd
      _ ≤ c.ends n + (c.wait n).nanos := Nat.add_le_add_right (Nat.le_add_right _ _) _
      _ ≤ c.begins (n + 1) := c.ends_le_begins n

theorem start_le_begins (c : Course) (n : Nat) : c.start ≤ c.begins n :=
  start_add_le_begins (d := 0) (fun _ => Nat.zero_le _) n

theorem start_le_ends (c : Course) (n : Nat) : c.start ≤ c.ends n :=
  Nat.le_trans (c.start_le_begins n) (Nat.le_add_right _ _)

theorem Made.begins_le (hmade : c.Made n) (hpatience : c.policy.patience.nanos ≠ 0) :
    c.begins n / Duration.milli ≤ Duration.tick (c.start + c.policy.patience.nanos) := by
  cases n with
  | zero => exact Nat.div_le_div_right (Nat.le_add_right_of_le (Nat.le_add_right _ _))
  | succ n =>
    have hfits : c.total n ≤ c.policy.patience.nanos :=
      (hmade n (Nat.lt_succ_self n)).2.resolve_left hpatience
    have hstart := c.start_le_ends n
    simp only [total] at hfits
    calc c.begins (n + 1) / Duration.milli
        = Duration.tick (c.ends n + (c.wait n).nanos) :=
          c.clock.wake_tick _ _ (Nat.le_add_right _ _)
      _ ≤ Duration.tick (c.start + c.policy.patience.nanos) :=
          Nat.div_le_div_right (by omega)

theorem Made.begins_le_of_dvd (hmade : c.Made n) (hpatience : c.policy.patience.nanos ≠ 0)
    (hstart : Duration.milli ∣ c.start) (hwhole : Duration.milli ∣ c.begins n) :
    c.begins n ≤ c.start + Duration.tick c.policy.patience.nanos * Duration.milli := by
  have hle := hmade.begins_le hpatience
  simp only [Duration.tick, Duration.milli] at hle hstart hwhole ⊢
  omega

theorem milli_dvd_begins (hclock : c.clock = .paused) (hstart : Duration.milli ∣ c.start)
    (hcost : ∀ i, Duration.milli ∣ c.cost i) (n : Nat) : Duration.milli ∣ c.begins n := by
  induction n with
  | zero => exact hstart
  | succ n ih =>
    simp only [begins, hclock, Clock.paused]
    exact Nat.dvd_add (Nat.dvd_add ih (hcost n)) (Nat.dvd_mul_left _ _)

theorem Made.mul_le_patience (hmade : c.Made n) (hpatience : c.policy.patience.nanos ≠ 0)
    (hwait : ∀ i, d ≤ (c.wait i).nanos) : n * d ≤ c.policy.patience.nanos := by
  cases n with
  | zero => simp
  | succ n =>
    have hfits : c.total n ≤ c.policy.patience.nanos :=
      (hmade n (Nat.lt_succ_self n)).2.resolve_left hpatience
    have hbegins := start_add_le_begins hwait n
    have hd := hwait n
    simp only [total, ends] at hfits
    calc (n + 1) * d = n * d + d := Nat.succ_mul n d
      _ ≤ c.policy.patience.nanos := by omega

/-- A retry that ends accounts for all its attempts, and it ends with the attempt that is the last.
With a patience no attempt begins after the millisecond that its end is rounded up to, nor, in whole
milliseconds, after the patience rounded up; and a least wait bounds their number. -/
theorem retry_accounted (htell : c.Tellable) :
    (c.clock = .paused → c.start = 0 → ∀ cost draw varied,
      (∀ i, c.cost i = cost i * Duration.milli) →
      (∀ i, c.policy.jittered draw i = .answer (c.wait i)) →
      retry c.policy draw c.outcome cost varied =
        c.report? (varied + c.policy.patience.nanos / Duration.milli + 2)) ∧
    (∀ n fuel, c.Made n → c.report? (n + fuel) = c.goOn fuel (c.trial n)) ∧
    (∀ fuel r, c.report? fuel = some r → ∃ n < fuel, c.Accounts n r) ∧
    (∀ n fuel, c.Last n → n < fuel → ∃ r, c.report? fuel = some r ∧ c.Accounts n r) ∧
    (c.policy.patience.nanos = 0 → ∀ fuel r e, c.report? fuel = some r →
      r.result ≠ .answer (.error e)) ∧
    (c.policy.patience.nanos ≠ 0 →
      (∀ n, c.Made n →
        c.begins n / Duration.milli ≤ Duration.tick (c.start + c.policy.patience.nanos) ∧
        (Duration.milli ∣ c.start →
          Duration.milli ∣ c.begins n ∨
            c.clock = .paused ∧ (∀ i, Duration.milli ∣ c.cost i) →
          c.begins n ≤ c.start + Duration.tick c.policy.patience.nanos * Duration.milli)) ∧
      ∀ d, 0 < d → (∀ i, d ≤ (c.wait i).nanos) →
        ∃ r, c.report? (c.policy.patience.nanos / d + 1) = some r ∧
          r.trial.calls ≤ c.policy.patience.nanos / d + 1) := by
  refine ⟨fun hclock hstart cost draw varied hcost hdraw =>
      report?_eq_retry hclock hstart hcost hdraw varied,
    fun n fuel hmade => report?_of_made htell hmade fuel,
    fun fuel r hr => exists_accounts htell hr,
    fun n fuel hlast hn => hlast.exists_report htell hn,
    fun hendless fuel r e hr he => ?_,
    fun hpatience => ⟨fun n hmade => ⟨hmade.begins_le hpatience, fun hstart hwhole => ?_⟩,
      fun d hd hwait => ?_⟩⟩
  · obtain ⟨n, -, haccounts⟩ := exists_accounts htell hr
    have hfail : c.outcome n ≠ none := by simp [(haccounts.failure e).1 he]
    exact (haccounts.gaveUp hfail).1 hendless
  · obtain hwhole | ⟨hclock, hcost⟩ := hwhole
    · exact hmade.begins_le_of_dvd hpatience hstart hwhole
    · exact hmade.begins_le_of_dvd hpatience hstart (milli_dvd_begins hclock hstart hcost n)
  · have hmany : ¬c.Made (c.policy.patience.nanos / d + 1) := by
      intro hmade
      have hmul := hmade.mul_le_patience hpatience hwait
      exact absurd ((Nat.le_div_iff_mul_le hd).2 hmul) (by omega)
    obtain ⟨n, hn, hlast⟩ := exists_last hmany
    obtain ⟨r, hr, haccounts⟩ := hlast.exists_report htell hn
    refine ⟨r, hr, ?_⟩
    rw [haccounts.calls, haccounts.length]
    exact hn

theorem powerFrom_one (n : Nat) : powerFrom 1.0 1.0 n = 1.0 := by
  have hone : (1.0 : Float) * 1.0 = 1.0 := by decide
  induction n using Nat.strongRecOn with
  | ind n ih =>
    rw [powerFrom, hone, ite_self]
    split
    · rfl
    · exact ih (n / 2) (by omega)

def failing (wait patience : Duration) (start cost : Nat) : Course where
  policy :=
    { initial := wait
      multiplier := 1.0
      longest := wait
      randomization := 0.0
      patience := patience }
  clock := .paused
  start := start
  wait _ := wait
  outcome _ := some "down"
  cost _ := cost

section Failing
variable {wait patience : Duration} {start cost : Nat}

theorem jittered_failing (hle : wait.seconds ≤ wait.seconds * 1.0)
    (hsame : Duration.ofSeconds? wait.seconds = some wait) (draw : Float → Float → Float)
    (i : Nat) : (failing wait patience start cost).policy.jittered draw i = .answer wait := by
  have hzero : ((0.0 : Float) == 0.0) = true := by decide
  simp only [Policy.jittered, Policy.interval, failing, power, powerFrom_one, hle, hzero,
    decide_true, Bool.or_true, Bool.true_or, if_true, Policy.ofSeconds, hsame]

theorem tellable_failing (hpatience : patience.nanos ≠ 0)
    (hlength : start + patience.nanos + 2 * Duration.milli + cost + wait.nanos <
      UInt64.size / 2 * Duration.second) : (failing wait patience start cost).Tellable := by
  intro i hmade _
  have hbegins := hmade.begins_le hpatience
  simp only [total, ends, failing, Clock.paused, Duration.tick, Duration.milli, Duration.second,
    UInt64.size] at hbegins hlength ⊢
  omega

end Failing

theorem retry_accounted_of_steady : ∃ c : Course, c.clock = .paused ∧ c.start = 0 ∧
    c.policy.patience = .ofMillis 1000 ∧
    (∀ i, c.wait i = .ofMillis 400 ∧ c.cost i = 500000 ∧ c.outcome i = some "down" ∧
      ∀ draw, c.policy.jittered draw i = .answer (c.wait i)) ∧
    c.Tellable ∧ c.begins 1 = 401500000 ∧
    ∃ r, c.report? 3 = some r ∧ r.trial.calls ≤ 3 ∧ ∃ n < 3, c.Accounts n r := by
  let c := failing (.ofMillis 400) (.ofMillis 1000) 0 500000
  have htell : c.Tellable := tellable_failing (by decide) (by decide)
  have h := retry_accounted htell
  have hpatience : c.policy.patience.nanos = 1000000000 := by decide
  have hthree : c.policy.patience.nanos / 400000000 + 1 = 3 := by rw [hpatience]
  obtain ⟨r, hr, hcalls⟩ := (h.2.2.2.2.2 (by omega)).2 400000000 (by decide)
    fun _ => show 400000000 ≤ (Duration.ofMillis 400).nanos by decide
  rw [hthree] at hr hcalls
  refine ⟨c, rfl, rfl, rfl, fun i => ⟨rfl, rfl, rfl, fun draw => ?_⟩, htell, by decide, r, hr,
    hcalls, h.2.2.1 3 r hr⟩
  exact jittered_failing (by decide +kernel) (by decide +kernel) draw i

/-- Timers run in whole milliseconds and patience does not. With ten milliseconds of it an attempt
begins half a millisecond late when the first one takes that long before a wait of 9.5
milliseconds, and a whole one when the retry itself begins within a millisecond. -/
theorem attempt_begins_late :
    (∃ c : Course, c.clock = .paused ∧ c.start = 0 ∧ c.cost 0 = 500000 ∧
      (∀ draw i, c.policy.jittered draw i = .answer (c.wait i)) ∧ c.Tellable ∧ c.Made 1 ∧
      c.begins 1 = 10500000 ∧
      c.start + Duration.tick c.policy.patience.nanos * Duration.milli = 10000000) ∧
    ∃ c : Course, c.clock = .paused ∧ c.start = 500000 ∧ (∀ i, c.cost i = 0) ∧
      (∀ draw i, c.policy.jittered draw i = .answer (c.wait i)) ∧ c.Tellable ∧ c.Made 1 ∧
      c.begins 1 = 11500000 ∧
      c.start + Duration.tick c.policy.patience.nanos * Duration.milli = 10500000 := by
  let c := failing (.ofNanos 9500000) (.ofMillis 10) 0 500000
  let late := failing (.ofMillis 10) (.ofMillis 10) 500000 0
  refine ⟨⟨c, rfl, rfl, rfl, fun draw i => ?_, ?_, ?_, by decide, by decide⟩,
    late, rfl, rfl, fun _ => rfl, fun draw i => ?_, ?_, ?_, by decide, by decide⟩
  · exact jittered_failing (by decide +kernel) (by decide +kernel) draw i
  · exact tellable_failing (by decide) (by decide)
  · exact made_succ_iff.2 ⟨c.made_zero, nofun, .inr (by decide)⟩
  · exact jittered_failing (by decide +kernel) (by decide +kernel) draw i
  · exact tellable_failing (by decide) (by decide)
  · exact made_succ_iff.2 ⟨late.made_zero, nofun, .inr (by decide)⟩

end Course

end DeviceGateway.Backoff
