import DeviceGateway.Backoff.Policy
import DeviceGateway.Error

/-! Trying again until an operation succeeds or patience runs out. Instants and lengths of time are
nanoseconds, while timers run in whole milliseconds of their clock. A wait is announced, with the
error it follows, before it begins; the last error is the result when the time gone by and the next
wait exceed the patience. -/

namespace DeviceGateway.Backoff

/-- A clock with timers. It need not stand at a whole millisecond when one of them fires. -/
structure Clock where
  wake : Nat → Nat → Nat
  wake_tick : ∀ now deadline, now ≤ deadline →
    wake now deadline / Duration.milli = Duration.tick deadline
  horizon : Nat

namespace Clock

theorem tick_of_whole_millis (now deadline : Nat) (h : now ≤ deadline) :
    (now + (Duration.tick deadline - now / Duration.milli) * Duration.milli) / Duration.milli =
      Duration.tick deadline := by
  simp only [Duration.tick, Duration.milli]
  omega

/-- A clock that goes on to the next timer by whole milliseconds, which leaves the part of a
millisecond that it stood at. -/
def paused : Clock where
  wake now deadline := now + (Duration.tick deadline - now / Duration.milli) * Duration.milli
  wake_tick := tick_of_whole_millis
  horizon := UInt64.size / 2 * Duration.second

theorem le_wake (k : Clock) {now deadline : Nat} (h : now ≤ deadline) :
    deadline ≤ k.wake now deadline :=
  calc deadline ≤ Duration.tick deadline * Duration.milli := Duration.le_tick deadline
    _ = k.wake now deadline / Duration.milli * Duration.milli := by rw [k.wake_tick _ _ h]
    _ ≤ k.wake now deadline := Nat.div_mul_le_self _ _

/-- A sleep whose end the clock cannot tell lasts thirty years. -/
def sleep (k : Clock) (now : Nat) (d : Duration) : Nat :=
  if now + d.nanos < k.horizon then k.wake now (now + d.nanos)
  else k.wake now (now + 30 * 365 * 86400 * Duration.second)

end Clock

inductive Next
  | wait (d : Duration)
  | giveUp
  | crash
  deriving DecidableEq

def Policy.next (p : Policy) (elapsed : Nat) : Outcome Duration → Next
  | .crash => .crash
  | .answer d =>
    let total := elapsed + d.nanos
    if p.patience.nanos = 0 then .wait d
    else if UInt64.size * Duration.second ≤ total then .crash
    else if p.patience.nanos < total then .giveUp
    else .wait d

structure Trial where
  instant : Nat
  calls : Nat := 0
  notices : List (String × Duration) := []

def Trial.now (t : Trial) : Nat := t.instant / Duration.milli

structure Report where
  result : Outcome (Except String Unit)
  trial : Trial

/-- Up to `fuel` attempts of a retry that began at `start`. Call `i` takes `cost i` and ends with
`outcome i`, which is the error or nothing; the wait after it is `draw i`. -/
def retryFrom (p : Policy) (clock : Clock) (start : Nat) (draw : Nat → Outcome Duration)
    (outcome : Nat → Option String) (cost : Nat → Nat) : Nat → Trial → Option Report
  | 0, _ => none
  | fuel + 1, t =>
    let i := t.calls
    let t := { t with instant := t.instant + cost i, calls := i + 1 }
    match outcome i with
    | none => some ⟨.answer (.ok ()), t⟩
    | some error =>
      match p.next (t.instant - start) (draw i) with
      | .crash => some ⟨.crash, t⟩
      | .giveUp => some ⟨.answer (.error error), t⟩
      | .wait d =>
        retryFrom p clock start draw outcome cost fuel
          { t with instant := clock.sleep t.instant d, notices := (error, d) :: t.notices }

/-- A retry on a paused clock whose outcomes are all alike after the first `varied`, with the costs
in milliseconds. Each attempt that is waited for takes a millisecond of the patience, unless its
wait is nothing. -/
def retry (p : Policy) (draw : Float → Float → Float) (outcome : Nat → Option String)
    (cost : Nat → Nat) (varied : Nat) : Option Report :=
  retryFrom p .paused 0 (p.jittered draw) outcome (fun i => cost i * Duration.milli)
    (varied + p.patience.nanos / Duration.milli + 2) ⟨0, 0, []⟩

def notReady (why : String) : GatewayError := .startup (.unhealthy why)

end DeviceGateway.Backoff
