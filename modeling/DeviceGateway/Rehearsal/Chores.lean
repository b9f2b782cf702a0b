import DeviceGateway.TaskGroup

/-! A task group at work on scripted chores. The clock stands while anything can move and then
jumps to the next moment at which something is due. At equal times the end of the grace period
comes before any chore. -/

namespace DeviceGateway.Rehearsal

/-- A task of a group: waits to be asked to stop if `waits`, then sleeps, then hangs for ever or
goes on, asks all others to stop if `stops`, and ends. -/
structure Chore where
  name : String
  watches : Bool := false
  waits : Bool := false
  sleeps : Option Nat := none
  hangs : Bool := false
  stops : Bool := false
  ending : TaskEnd := .returned

inductive Chore.Place
  | start
  | beforeStop
  | asleep (due : Nat)
  | hung
  | gone
  deriving DecidableEq

structure Chores where
  group : TaskGroup
  chores : List (Chore × Chore.Place)
  now : Nat := 0
  ready : List Nat := []
  log : List (String × Nat) := []

namespace Chores

def move (w : Chores) (i : Nat) (place : Chore.Place) : Chores :=
  { w with chores := w.chores.modify i fun (c, _) => (c, place) }

def placed (w : Chores) (p : Chore.Place → Bool) : List Nat :=
  w.chores.zipIdx.filterMap fun ((_, place), i) => if p place then some i else none

def requestStop (w : Chores) : Chores :=
  let woken := if w.group.stopping then [] else w.placed (· == .beforeStop)
  { w with group := w.group.requestStop, ready := w.ready ++ woken }

def finish (w : Chores) (i : Nat) (c : Chore) : Chores :=
  { w.move i .gone with group := w.group.finish i c.name c.ending }

def wakeUp (w : Chores) (i : Nat) (c : Chore) : Chores :=
  if c.hangs then w.move i .hung
  else
    let w := if c.stops then w.requestStop else w
    { w with log := (c.name, w.now) :: w.log }.finish i c

def sleep (w : Chores) (i : Nat) (c : Chore) : Chores :=
  match c.sleeps with
  | some (d + 1) => w.move i (.asleep (w.now + d + 1))
  | _ => w.wakeUp i c

def poll (w : Chores) (i : Nat) : Chores :=
  match w.chores[i]? with
  | none => w
  | some (c, place) =>
    match place with
    | .start | .beforeStop =>
      if c.watches then if w.group.stopping then w.finish i c else w.move i .beforeStop
      else if c.waits && !w.group.stopping then w.move i .beforeStop
      else w.sleep i c
    | .asleep due => if due ≤ w.now then w.wakeUp i c else w
    | .hung | .gone => w

def pollAll : Nat → Chores → Chores
  | 0, w => w
  | fuel + 1, w =>
    match w.ready with
    | [] => w
    | i :: rest => pollAll fuel ({ w with ready := rest }.poll i)

def joinAll : Nat → Chores → Chores
  | 0, w => w
  | fuel + 1, w =>
    if w.group.ended.isEmpty then w
    else joinAll fuel { w.requestStop with group := w.group.join w.now }

def expire (w : Chores) : Chores := { w with group := w.group.expire w.now }

def nextMoment? (w : Chores) : Option Nat :=
  let dues := w.chores.filterMap fun (_, place) =>
    match place with
    | .asleep due => some due
    | _ => none
  (w.group.deadline.toList ++ dues).min?

def jump (w : Chores) (t : Nat) : Chores :=
  let w := { w with now := t }.expire
  { w with ready := w.placed (· == .asleep t) }

/-- Runs until the wait for the group is over, and gives nothing when it never is. Every turn
either moves a chore on or ends the grace period. -/
def runFrom : Nat → Chores → Option Chores
  | 0, _ => none
  | fuel + 1, w =>
    let n := 3 * w.chores.length + 1
    if w.group.isOver then some w
    else if !w.ready.isEmpty then runFrom fuel (pollAll n w)
    else if !w.group.ended.isEmpty then runFrom fuel (joinAll n w).expire
    else match w.nextMoment? with
      | none => none
      | some t => runFrom fuel (w.jump t)

def run (grace : Duration) (stopped : Bool) (chores : List Chore) : Option Chores :=
  let ids := List.range chores.length
  let group := ({ grace := grace, running := ids, stopping := stopped } : TaskGroup).await 0
  runFrom (12 * chores.length + 12)
    { group := group.expire 0, chores := chores.map (·, .start), ready := ids }

end Chores

end DeviceGateway.Rehearsal
