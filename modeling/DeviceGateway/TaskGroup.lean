import DeviceGateway.Duration
import DeviceGateway.Error

/-! A group of tasks that stop together. The group is waited for until nobody is left: it joins the
tasks that have ended, in the order in which they ended, asks the others to stop once the first has
been joined, and cuts off those that are still running when a grace period has passed without
another join. The first failure is the result. Only whole milliseconds of the clock are told apart,
since timers fire at them: a grace period is rounded up to whole ones. -/

namespace DeviceGateway

inductive TaskEnd
  | returned
  | failed (e : GatewayError)
  | crashed
  deriving DecidableEq

structure TaskGroup where
  grace : Duration := .ofSecs 10
  running : List Nat
  ended : List (Nat × String × TaskEnd) := []
  stopping : Bool := false
  deadline : Option Nat := none
  failure : Option GatewayError := none

namespace TaskGroup

/-- What is wrong with an end. A task that returns before anyone asked it to has failed. -/
def fault? (stopping : Bool) (name : String) : TaskEnd → Option GatewayError
  | .returned => if stopping then none else some (.stopped (.returned name))
  | .failed e => some e
  | .crashed => some (.stopped .crashed)

def requestStop (g : TaskGroup) : TaskGroup := { g with stopping := true }

def finish (g : TaskGroup) (id : Nat) (name : String) (e : TaskEnd) : TaskGroup :=
  { g with running := g.running.filter (· != id), ended := g.ended ++ [(id, name, e)] }

/-- Begins a grace period at `now`, but only when the tasks have been asked to stop. -/
def await (g : TaskGroup) (now : Nat) : TaskGroup :=
  { g with deadline := if g.stopping then some (Duration.due now g.grace) else none }

def join (g : TaskGroup) (now : Nat) : TaskGroup :=
  match g.ended with
  | [] => g
  | (_, name, e) :: rest =>
    { g with ended := rest, stopping := true, failure := g.failure.or (fault? g.stopping name e) }.await
      now

def expire (g : TaskGroup) (now : Nat) : TaskGroup :=
  if g.ended.isEmpty ∧ g.deadline.any (· ≤ now) then { g with running := [] } else g

def isOver (g : TaskGroup) : Bool := g.running.isEmpty && g.ended.isEmpty

def result (g : TaskGroup) : Except GatewayError Unit :=
  match g.failure with
  | some e => .error e
  | none => .ok ()

theorem failure_join_of_some {g : TaskGroup} {e : GatewayError} (h : g.failure = some e)
    (now : Nat) :
    (g.join now).failure = some e := by
  simp only [join]
  split <;> simp [await, h]

end TaskGroup

end DeviceGateway
