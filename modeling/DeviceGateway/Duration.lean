/-! Lengths of time in whole nanoseconds. They end where the seconds no longer fit 64 bits. -/

namespace DeviceGateway

abbrev Duration.milli : Nat := 1000000

abbrev Duration.second : Nat := 1000000000

structure Duration where
  nanos : Nat
  nanos_lt : nanos < UInt64.size * Duration.second
  deriving DecidableEq

namespace Duration

def ofNanos (n : Nat) : Duration :=
  ⟨min n (UInt64.size * second - 1), Nat.lt_of_le_of_lt (Nat.min_le_right _ _) (by decide)⟩

def ofMillis (n : Nat) : Duration := ofNanos (n * milli)

def ofSecs (n : Nat) : Duration := ofNanos (n * second)

def zero : Duration := ⟨0, by decide⟩

/-- Timers run in whole milliseconds: the first one that is not before `nanos`. -/
def tick (nanos : Nat) : Nat := (nanos + (milli - 1)) / milli

theorem le_tick (nanos : Nat) : nanos ≤ tick nanos * milli := by
  simp only [tick, milli]
  omega

def due (now : Nat) (d : Duration) : Nat := now + tick d.nanos

end Duration

end DeviceGateway
