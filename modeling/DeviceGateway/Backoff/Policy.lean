import DeviceGateway.Activity
import DeviceGateway.Backoff.Seconds

/-! How long to wait between attempts. The interval grows by a factor with each attempt up to a
longest one, worked out in doubles of seconds, and may be shortened or lengthened at random. A
result that is no duration is a crash. -/

namespace DeviceGateway.Backoff

structure Policy where
  initial : Duration := .ofMillis 500
  multiplier : Float := 1.5
  longest : Duration := .ofSecs 60
  randomization : Float := 0.5
  /-- How long to go on altogether; zero stands for ever. -/
  patience : Duration := .ofSecs 900

def powerFrom (r x : Float) (n : Nat) : Float :=
  let r := if n % 2 = 1 then r * x else r
  if n / 2 = 0 then r else powerFrom r (x * x) (n / 2)
termination_by n

def power (x : Float) (n : Nat) : Float := powerFrom 1.0 x n

def lastAttempt : Nat := UInt32.size / 2 - 1

namespace Policy

def validated (p : Policy) : Policy :=
  { p with
    randomization :=
      if p.randomization < 0.0 then 0.0 else if 1.0 < p.randomization then 1.0 else p.randomization
    multiplier := if 1.0 ≤ p.multiplier then p.multiplier else 1.0
    longest := if p.longest.nanos < p.initial.nanos then p.initial else p.longest }

def ofSeconds (x : Float) : Outcome Duration :=
  match Duration.ofSeconds? x with
  | some d => .answer d
  | none => .crash

def interval (p : Policy) (attempt : Nat) : Outcome Duration :=
  let secs := p.initial.seconds * power p.multiplier (min attempt lastAttempt)
  if !secs.isFinite || p.longest.seconds ≤ secs then .answer p.longest else ofSeconds secs

/-- The bounds of a random wait around `base` seconds. Bounds in the wrong order, or too far apart
to be told, are a crash. -/
def band (p : Policy) (base : Float) : Outcome (Float × Float) :=
  let low := base - base * p.randomization
  let high := base + base * p.randomization
  if low ≤ high && (high - low).isFinite then .answer (low, high) else .crash

def jittered (p : Policy) (draw : Float → Float → Float) (attempt : Nat) : Outcome Duration :=
  match p.interval attempt with
  | .crash => .crash
  | .answer d =>
    let base := d.seconds
    if p.randomization == 0.0 || base == 0.0 then ofSeconds base
    else match p.band base with
      | .crash => .crash
      | .answer (low, high) =>
        let secs := draw low high
        ofSeconds (if secs < 0.0 then 0.0 else secs)

def varies (p : Policy) (attempt : Nat) : Bool :=
  p.jittered (fun low _ => low) attempt != p.jittered (fun _ high => high) attempt

end Policy

end DeviceGateway.Backoff
