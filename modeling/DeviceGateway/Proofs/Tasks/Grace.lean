import DeviceGateway.Proofs.Tasks.GroupWait

/-!
# How long a group goes on after it was asked to stop

The grace period begins when the wait sees that the tasks have been asked to stop, and it looks
only before it goes on to wait for the next task. So the period begins anew with every task that
is joined; and when the stop is asked for while the wait has nothing to join, it does not begin
until one more task has ended.
-/

namespace DeviceGateway.GroupWait
variable {w v u z : GroupWait} {o : Occurrence} {os : List Occurrence} {latest : Nat}
variable {grace : Duration} {ids : List Nat}

/-- The wait knows of the stop, or is about to. -/
def Noticed (w : GroupWait) : Prop := w.group.ended ≠ [] ∨ w.group.deadline ≠ none

structure Kept (grace : Duration) (w : GroupWait) : Prop where
  grace_eq : w.group.grace = grace
  nodup : w.group.running.Nodup
  idle : w.group.stopping = false → w.group.deadline = none

theorem Kept.step (h : w.Kept grace) (hstep : w.Step o v) : v.Kept grace := by
  cases hstep with
  | ended id name e hid => exact ⟨h.grace_eq, h.nodup.filter _, h.idle⟩
  | stopRequested => exact ⟨h.grace_eq, h.nodup, by simp [TaskGroup.requestStop]⟩
  | begun hw =>
    refine ⟨h.grace_eq, h.nodup, fun hidle => ?_⟩
    have hidle : w.group.stopping = false := hidle
    simp [TaskGroup.await, hidle]
  | joined id name e rest hw hended =>
    exact ⟨h.grace_eq, h.nodup, by simp [TaskGroup.join, TaskGroup.await]⟩
  | expired hw =>
    simp only [TaskGroup.expire]
    split
    · exact ⟨h.grace_eq, List.nodup_nil, h.idle⟩
    · exact h
  | passed t => exact ⟨h.grace_eq, h.nodup, h.idle⟩

theorem Run.kept (h : (start grace ids).Run os w) (hids : ids.Nodup) : w.Kept grace := by
  induction h with
  | here => exact ⟨rfl, hids, fun _ => rfl⟩
  | step _ hstep ih => exact ih.step hstep

theorem Kept.deadline_of_step (h : w.Kept grace) (hstep : w.Step o v)
    (hw : ¬(w.waiting = true ∧ w.group.stopping = true))
    (hv : v.waiting = true ∧ v.group.stopping = true) :
    v.group.deadline = none ∨ v.group.deadline = some (v.now + v.patience) := by
  cases hstep with
  | ended id name e hid => exact absurd hv hw
  | stopRequested =>
    have hidle : w.group.stopping = false := by
      cases hs : w.group.stopping with
      | false => rfl
      | true => exact absurd ⟨hv.1, hs⟩ hw
    exact .inl (h.idle hidle)
  | begun hidle =>
    have hstop : w.group.stopping = true := hv.2
    refine .inr ?_
    simp only [TaskGroup.await, hstop]
    rfl
  | joined id name e rest hwait hended => exact .inr rfl
  | expired hwait =>
    refine absurd ⟨hwait, ?_⟩ hw
    have hstop := hv.2
    simp only [TaskGroup.expire] at hstop
    split at hstop
    · exact hstop
    · exact hstop
  | passed t => exact absurd hv hw

theorem within_of_noticed (hw : w.waiting = true)
    (hd : w.group.deadline = none ∨ w.group.deadline = some (w.now + w.patience))
    (hn : w.Noticed) : w.Within (w.now + w.patience * w.group.running.length) := by
  by_cases hended : w.group.ended = []
  · have hd := hd.resolve_left (hn.resolve_left fun hsome => hsome hended)
    exact within_of_armed hw hended hd (Nat.le_refl _)
  · exact .inr ⟨hw, .inl ⟨hended, Nat.le_refl _⟩⟩

theorem not_returnsBy_of_not_noticed (hn : ¬w.Noticed) (hover : ¬w.IsOver)
    (latest : Nat) : ¬w.ReturnsBy latest := by
  intro hreturns
  obtain ⟨hended, hd⟩ := not_or.1 hn
  have hprompt : w.Prompt (.passed (latest + 1)) := by
    refine fun _ => .inr ⟨Classical.not_not.1 hended, fun d hd' => ?_⟩
    rw [Classical.not_not.1 hd] at hd'
    cases hd'
  rcases hreturns _ (.single ⟨_, .passed (latest + 1), hprompt⟩) with hover' | ⟨hnow, -⟩
  · exact hover hover'
  · have hnow : w.now + (latest + 1) ≤ latest := hnow
    omega

theorem exists_armed (hw : w.waiting = true)
    (hd : w.group.deadline = none ∨ w.group.deadline = some (w.now + w.patience))
    (hn : w.Noticed) : ∃ u, w.Leads u ∧ u.waiting = true ∧
      u.group.running = w.group.running ∧ u.group.ended = [] ∧ u.now = w.now ∧
      u.patience = w.patience ∧ u.group.deadline = some (w.now + w.patience) := by
  by_cases hended : w.group.ended = []
  · have hd := hd.resolve_left (hn.resolve_left fun hsome => hsome hended)
    exact ⟨w, .refl, hw, rfl, hended, rfl, rfl, hd⟩
  · obtain ⟨u, hu, hend⟩ := proceeds_joined hw hended
    exact ⟨u, .of_proceeds hu, hend⟩

theorem not_returnsBy_of_two (hw : w.waiting = true) (hnodup : w.group.running.Nodup)
    (hd : w.group.deadline = none ∨ w.group.deadline = some (w.now + w.patience))
    (hn : w.Noticed) (htwo : 2 ≤ w.group.running.length) (hpos : 0 < w.patience) :
    ¬w.ReturnsBy (w.now + w.patience) := by
  intro hreturns
  obtain ⟨u, hu, huw, hrun, hended, hnow, hpatience, hdeadline⟩ := exists_armed hw hd hn
  obtain ⟨a, b, rest, hab⟩ : ∃ a b rest, u.group.running = a :: b :: rest := by
    rw [← hrun] at htwo
    match u.group.running, htwo with
    | a :: b :: rest, _ => exact ⟨a, b, rest, rfl⟩
  let late : GroupWait := { u with now := u.now + u.patience }
  let left : GroupWait := { late with group := late.group.finish a "" .returned }
  have hlate : u.Leads late := by
    refine .single ⟨_, .passed u.patience, fun _ => .inr ⟨hended, fun d hd' => ?_⟩⟩
    rw [hdeadline, Option.mem_some_iff] at hd'
    omega
  have hleft : late.Leads left :=
    .single ⟨_, .ended a "" .returned (by simp [late, hab]), trivial⟩
  have hb : b ∈ left.group.running := by
    rw [← hrun, hab] at hnodup
    have hne : b ≠ a := fun h => by simp [h] at hnodup
    simp [left, late, TaskGroup.finish, hab, hne]
  have hsome : left.group.ended ≠ [] := by simp [left, TaskGroup.finish]
  obtain ⟨x, hx, hxw, hxrun, hxended, hxnow, -, hxd⟩ := proceeds_joined (w := left) huw hsome
  have hagain : x.Leads { x with now := x.now + 1 } := by
    refine .single ⟨_, .passed 1, fun _ => .inr ⟨hxended, fun d hd' => ?_⟩⟩
    rw [hxd, Option.mem_some_iff] at hd'
    have hleftp : left.patience = w.patience := hpatience
    omega
  have hreach := ((hu.trans hlate).trans hleft).trans (Leads.of_proceeds hx |>.trans hagain)
  rcases hreturns _ hreach with hover | ⟨hlatest, -⟩
  · have hnone : x.group.running = [] := (isOver_iff.1 hover).2.1
    rw [← hxrun, hnone] at hb
    cases hb
  · have hleftnow : left.now = u.now + u.patience := rfl
    have hlatest : x.now + 1 ≤ w.now + w.patience := hlatest
    omega

/-- From the moment at which the wait and a request to stop first meet, one grace period is enough
exactly if the wait knows of the request and at most one task can still begin another; and there is
a bound at all exactly if the wait knows. -/
theorem returns_within_grace_iff (hids : ids.Nodup) (hrun : (start grace ids).Run os w)
    (hstep : w.Step o v) (hw : ¬(w.waiting = true ∧ w.group.stopping = true))
    (hv : v.waiting = true ∧ v.group.stopping = true) :
    (v.ReturnsBy (Duration.due v.now grace) ↔
      v.IsOver ∨ v.Noticed ∧ (v.group.running.length ≤ 1 ∨ Duration.tick grace.nanos = 0)) ∧
    (v.Noticed → v.ReturnsBy (v.now + Duration.tick grace.nanos * v.group.running.length)) ∧
    (¬v.Noticed → ¬v.IsOver → ∀ latest, ¬v.ReturnsBy latest) := by
  have hkept := hrun.kept hids
  have hd := hkept.deadline_of_step hstep hw hv
  have hkept := hkept.step hstep
  have hpatience : v.patience = Duration.tick grace.nanos := by rw [patience, hkept.grace_eq]
  have hbound : v.Noticed → v.ReturnsBy (v.now + v.patience * v.group.running.length) :=
    fun hn => (within_of_noticed hv.1 hd hn).returnsBy
  rw [Duration.due, ← hpatience]
  refine ⟨⟨fun hreturns => ?_, ?_⟩, hbound, fun hn hover => not_returnsBy_of_not_noticed hn hover⟩
  · by_cases hover : v.IsOver
    · exact .inl hover
    · have hn : v.Noticed := Classical.byContradiction fun hn =>
        not_returnsBy_of_not_noticed hn hover _ hreturns
      have hnot : ¬(2 ≤ v.group.running.length ∧ 0 < v.patience) := fun h =>
        not_returnsBy_of_two hv.1 hkept.nodup hd hn h.1 h.2 hreturns
      exact .inr ⟨hn, by omega⟩
  · rintro (hover | ⟨hn, hfew⟩)
    · exact Within.returnsBy (.inl hover)
    · have hle : v.patience * v.group.running.length ≤ v.patience := by
        rcases hfew with hfew | hzero
        · simpa using Nat.mul_le_mul_left v.patience hfew
        · simp [hzero]
      exact ReturnsBy.mono (hbound hn) (Nat.add_le_add_left hle _)

theorem returns_within_grace_of_last : ∃ v,
    (start (.ofMillis 1000) [0, 1]).Run
      [.begun, .ended 0 "first" .returned, .joined "first" .returned] v ∧ v.ReturnsBy 1000 := by
  let w : GroupWait :=
    ⟨{ grace := .ofMillis 1000, running := [1], ended := [(0, "first", .returned)] }, 0, true⟩
  have hbegun : (start (.ofMillis 1000) [0, 1]).Run [.begun] _ := .step .here (.begun rfl)
  have hended : (start (.ofMillis 1000) [0, 1]).Run [.begun, .ended 0 "first" .returned] w :=
    hbegun.step (.ended 0 "first" .returned (by decide))
  have hstep : w.Step (.joined "first" .returned) _ := .joined 0 "first" .returned [] rfl (.refl _)
  have h := returns_within_grace_iff (by decide) hended hstep (by decide) (by decide)
  exact ⟨_, hended.step hstep, h.1.2 (.inr ⟨.inr (by decide), .inl (by decide)⟩)⟩

/-- A task asks for the stop at once, one ends 600 milliseconds later and one never. The grace
period of a second is over then after 1600. -/
theorem grace_begins_anew : ∃ v u,
    (start (.ofMillis 1000) [0, 1, 2]).Run [.begun, .stopRequested] v ∧ v.Leads u ∧ ¬u.IsOver ∧
      Duration.due v.now (.ofMillis 1000) = 1000 ∧ u.now = 1600 := by
  let g : TaskGroup := { grace := .ofMillis 1000, running := [0, 1, 2], stopping := true }
  let first : GroupWait :=
    ⟨{ g with running := [1, 2], deadline := some (Duration.due 0 g.grace) }, 0, true⟩
  let second : GroupWait :=
    ⟨{ g with running := [2], deadline := some (Duration.due 600 g.grace) }, 600, true⟩
  have hbegun : (start (.ofMillis 1000) [0, 1, 2]).Run [.begun] _ := .step .here (.begun rfl)
  have hfirst : Leads ⟨g, 0, true⟩ first :=
    .head ⟨_, .ended 0 "stop" .returned (by decide), trivial⟩
      (.single ⟨_, .joined 0 "stop" .returned [] rfl (.refl _), trivial⟩)
  have hslow : first.Leads { first with now := 600 } :=
    .single ⟨_, .passed 600, fun _ => .inr ⟨rfl, by decide⟩⟩
  have hsecond : Leads { first with now := 600 } second :=
    .head ⟨_, .ended 1 "slow" .returned (by decide), trivial⟩
      (.single ⟨_, .joined 1 "slow" .returned [] rfl (.refl _), trivial⟩)
  have hdeaf : second.Leads { second with now := 1600 } :=
    .single ⟨_, .passed 1000, fun _ => .inr ⟨rfl, by decide⟩⟩
  refine ⟨⟨g, 0, true⟩, { second with now := 1600 }, hbegun.step .stopRequested,
    ((hfirst.trans hslow).trans hsecond).trans hdeaf, ?_, by decide, rfl⟩
  rw [isOver_iff]
  decide

end DeviceGateway.GroupWait
