import DeviceGateway.Proofs.Tasks.GroupWait

/-!
# What a wait reports

The wait finds a task at fault by what it sees when it joins it: a failure or a crash always, and a
return unless the tasks have been asked to stop by then. So a task that returned before that is at
fault only if nobody asks before the first join.
-/

namespace DeviceGateway

namespace TaskGroup

theorem fault?_ne_none_iff {stopping : Bool} {name : String} {e : TaskEnd} :
    fault? stopping name e ≠ none ↔ e ≠ .returned ∨ stopping = false := by
  cases e with
  | returned => cases stopping <;> simp [fault?]
  | failed e => simp [fault?]
  | crashed => simp [fault?]

theorem result_eq_error_iff {g : TaskGroup} : (∃ e, g.result = .error e) ↔ g.failure ≠ none := by
  rw [result]
  cases g.failure <;> simp

end TaskGroup

namespace GroupWait
variable {w v : GroupWait} {o : Occurrence} {os before after : List Occurrence}
variable {grace : Duration} {ids : List Nat}

/-- The tasks are asked to stop, be it because one of them was joined. -/
def Occurrence.requests : Occurrence → Bool
  | stopRequested | joined .. => true
  | _ => false

def Occurrence.Faulty (o : Occurrence) : Prop := ∃ name e, o = joined name e ∧ e ≠ .returned

/-- Somebody is at fault: a task that did not return, or the first task that was joined, if that is
what asked the others to stop. -/
def Blamed (os : List Occurrence) : Prop :=
  (∃ o ∈ os, o.Faulty) ∨ ∃ name e, os.find? Occurrence.requests = some (.joined name e)

theorem find?_requests_concat :
    (∃ name e, (os ++ [o]).find? Occurrence.requests = some (.joined name e)) ↔
      (∃ name e, os.find? Occurrence.requests = some (.joined name e)) ∨
        os.any Occurrence.requests = false ∧ ∃ name e, o = .joined name e := by
  have hnone : os.any Occurrence.requests = false ↔ os.find? Occurrence.requests = none := by simp
  rw [List.find?_append, hnone]
  cases hos : os.find? Occurrence.requests with
  | some o' => simp
  | none => cases o <;> simp [Occurrence.requests]

theorem blamed_concat : Blamed (os ++ [o]) ↔
    Blamed os ∨ ∃ name e, o = .joined name e ∧
      (e ≠ .returned ∨ os.any Occurrence.requests = false) := by
  have hfaulty : (∃ o' ∈ os ++ [o], o'.Faulty) ↔ (∃ o' ∈ os, o'.Faulty) ∨ o.Faulty := by
    simp [or_and_right, exists_or]
  have hjoined : (∃ name e, o = .joined name e ∧
      (e ≠ .returned ∨ os.any Occurrence.requests = false)) ↔
      o.Faulty ∨ os.any Occurrence.requests = false ∧ ∃ name e, o = .joined name e := by
    simp only [Occurrence.Faulty, and_or_left, exists_or]
    exact or_congr_right (by simp [and_comm])
  rw [Blamed, Blamed, hfaulty, find?_requests_concat, hjoined]
  exact or_or_or_comm

structure Told (os : List Occurrence) (w : GroupWait) : Prop where
  stopping : w.group.stopping = os.any Occurrence.requests
  blames : w.group.failure ≠ none ↔ Blamed os
  awaits : (∃ id name e, .ended id name e ∈ os) →
    w.group.ended ≠ [] ∨ w.group.deadline ≠ none ∧ ∃ name e, .joined name e ∈ os

theorem Told.step (h : w.Told os) (hstep : w.Step o v) : v.Told (os ++ [o]) := by
  have hawaits : (∀ id name e, o ≠ .ended id name e) →
      (∃ id name e, .ended id name e ∈ os ++ [o]) → w.group.ended ≠ [] ∨
        w.group.deadline ≠ none ∧ ∃ name e, .joined name e ∈ os ++ [o] := by
    rintro ho ⟨id, name, e, he⟩
    rcases List.mem_append.1 he with he | he
    · rcases h.awaits ⟨id, name, e, he⟩ with hsome | ⟨hd, name, e, hj⟩
      · exact .inl hsome
      · exact .inr ⟨hd, name, e, List.mem_append_left _ hj⟩
    · exact absurd (List.mem_singleton.1 he).symm (ho id name e)
  have hblames : (∀ name e, o ≠ .joined name e) → (w.group.failure ≠ none ↔ Blamed (os ++ [o])) := by
    intro ho
    rw [blamed_concat, h.blames, or_iff_left]
    rintro ⟨name, e, rfl, -⟩
    exact ho name e rfl
  have hstopping : o.requests = false → w.group.stopping = (os ++ [o]).any Occurrence.requests := by
    intro ho
    simp [h.stopping, ho]
  cases hstep with
  | ended id name e hid =>
    exact ⟨hstopping rfl, hblames (by simp), fun _ => .inl (by simp [TaskGroup.finish])⟩
  | stopRequested =>
    exact ⟨by simp [TaskGroup.requestStop, Occurrence.requests], hblames (by simp),
      hawaits (by simp)⟩
  | begun hw =>
    refine ⟨hstopping rfl, hblames (by simp), fun he => ?_⟩
    rcases hawaits (by simp) he with hsome | ⟨-, name, e, hj⟩
    · exact .inl hsome
    · have hstop : w.group.stopping = true := by
        rw [hstopping rfl]
        exact List.any_eq_true.2 ⟨_, hj, rfl⟩
      exact .inr ⟨by simp [TaskGroup.await, hstop], name, e, hj⟩
  | joined id name e rest hw hended =>
    refine ⟨by simp [TaskGroup.join, TaskGroup.await, Occurrence.requests], ?_, fun _ =>
      .inr ⟨by simp [TaskGroup.join, TaskGroup.await], name, e, by simp⟩⟩
    have hfailure : w.group.failure.or (TaskGroup.fault? w.group.stopping name e) ≠ none ↔
        Blamed (os ++ [.joined name e]) := by
      rw [blamed_concat, ← h.blames, ← h.stopping, Ne, Option.or_eq_none_iff,
        Classical.not_and_iff_not_or_not]
      refine or_congr_right (TaskGroup.fault?_ne_none_iff.trans ⟨fun hfault => ?_, ?_⟩)
      · exact ⟨name, e, rfl, hfault⟩
      · rintro ⟨_, _, ⟨⟩, hfault⟩
        exact hfault
    exact hfailure
  | expired hw =>
    simp only [TaskGroup.expire]
    split
    · exact ⟨hstopping rfl, hblames (by simp), hawaits (by simp)⟩
    · exact ⟨hstopping rfl, hblames (by simp), hawaits (by simp)⟩
  | passed t => exact ⟨hstopping rfl, hblames (by simp), hawaits (by simp)⟩

theorem Run.told (h : (start grace ids).Run os w) : w.Told os := by
  induction h with
  | here => exact ⟨rfl, by simp [start, Blamed], by simp⟩
  | step _ hstep ih => exact ih.step hstep

theorem exists_returnsBy (hw : w.waiting = true)
    (h : w.group.ended ≠ [] ∨ w.group.deadline ≠ none) : ∃ latest, w.ReturnsBy latest := by
  by_cases hended : w.group.ended = []
  · obtain ⟨d, hd⟩ := Option.ne_none_iff_exists'.1 (h.resolve_left fun hsome => hsome hended)
    exact ⟨_, Within.returnsBy (.inr ⟨hw, .inr ⟨hended, d, hd, Nat.le_refl _⟩⟩)⟩
  · exact ⟨_, Within.returnsBy (.inr ⟨hw, .inl ⟨hended, Nat.le_refl _⟩⟩)⟩

/-- A task that returns before anyone was asked to stop is reported, unless somebody asks before the
first join and all others return as well; and the wait comes to its end. -/
theorem early_return_reported_iff {id : Nat} {task : String}
    (hrun : (start grace ids).Run (before ++ .ended id task .returned :: after) w)
    (hearly : ∀ o ∈ before, o.requests = false) :
    (w.IsOver → ((∃ e, w.group.result = .error e) ↔
      after.find? Occurrence.requests ≠ some .stopRequested ∨ ∃ o ∈ after, o.Faulty)) ∧
    (w.waiting = true → ∃ latest, w.ReturnsBy latest) := by
  have htold := hrun.told
  have hawaits := htold.awaits ⟨id, task, .returned, by simp⟩
  have hjoins : ∀ {name e}, .joined name e ∈ before ++ .ended id task .returned :: after →
      .joined name e ∈ after := by
    intro name e hj
    rcases List.mem_append.1 hj with hj | hj
    · cases hearly _ hj
    · simpa using hj
  have hfind : (before ++ .ended id task .returned :: after).find? Occurrence.requests =
      after.find? Occurrence.requests := by
    rw [List.find?_append, List.find?_eq_none.2 fun o ho => by simp [hearly o ho]]
    rfl
  have hfaulty : (∃ o ∈ before ++ .ended id task .returned :: after, o.Faulty) ↔
      ∃ o ∈ after, o.Faulty := by
    constructor
    · rintro ⟨_, hj, name, e, rfl, he⟩
      exact ⟨_, hjoins hj, name, e, rfl, he⟩
    · rintro ⟨o, ho, hf⟩
      exact ⟨o, by simp [ho], hf⟩
  refine ⟨fun hover => ?_, fun hw => exists_returnsBy hw (hawaits.imp_right And.left)⟩
  -- The task has been joined by now, so there is a first request.
  obtain ⟨-, n, e, hj⟩ := hawaits.resolve_left fun hsome => hsome (isOver_iff.1 hover).2.2
  obtain ⟨o, ho⟩ := Option.isSome_iff_exists.1
    ((List.find?_isSome (p := Occurrence.requests)).2 ⟨_, hjoins hj, rfl⟩)
  have hfirst : (∃ name e, after.find? Occurrence.requests = some (.joined name e)) ↔
      after.find? Occurrence.requests ≠ some .stopRequested := by
    have hrequests := List.find?_some ho
    rw [ho]
    cases o with
    | stopRequested => simp
    | joined name e => simp
    | _ => cases hrequests
  rw [TaskGroup.result_eq_error_iff, htold.blames, Blamed, hfind, hfaulty, hfirst, or_comm]

theorem early_return_reported_of_one : ∃ w,
    (start (.ofSecs 10) [0]).Run ([.begun] ++ .ended 0 "early" .returned ::
      [.joined "early" .returned]) w ∧ w.IsOver ∧ ∃ e, w.group.result = .error e := by
  have hbegun : (start (.ofSecs 10) [0]).Run [.begun] _ := .step .here (.begun rfl)
  have hended : (start (.ofSecs 10) [0]).Run [.begun, .ended 0 "early" .returned]
      ⟨{ running := [], ended := [(0, "early", .returned)] }, 0, true⟩ :=
    hbegun.step (.ended 0 "early" .returned (by decide))
  have hrun : (start (.ofSecs 10) [0]).Run ([.begun] ++ .ended 0 "early" .returned ::
      [.joined "early" .returned]) _ := hended.step (.joined 0 "early" .returned [] rfl (.refl _))
  have h := early_return_reported_iff hrun (by simp [Occurrence.requests])
  refine ⟨_, hrun, ?hover, (h.1 ?hover).2 (.inl (by simp [Occurrence.requests]))⟩
  exact isOver_iff.2 ⟨rfl, rfl, rfl⟩

/-- Before the return is joined, another task asks for the stop. -/
theorem early_return_masked : ∃ w,
    (start (.ofSecs 10) [0, 1]).Run [.begun, .ended 0 "early" .returned, .stopRequested,
      .ended 1 "stop" .returned, .joined "early" .returned, .joined "stop" .returned] w ∧
    w.IsOver ∧ w.group.result = .ok () := by
  have hbegun : (start (.ofSecs 10) [0, 1]).Run [.begun] _ := .step .here (.begun rfl)
  have hearly := hbegun.step (.ended 0 "early" .returned (by decide))
  have hstop : (start (.ofSecs 10) [0, 1]).Run _
      ⟨{ running := [], stopping := true,
         ended := [(0, "early", .returned), (1, "stop", .returned)] }, 0, true⟩ :=
    (hearly.step .stopRequested).step (.ended 1 "stop" .returned (by decide))
  have hfirst : (start (.ofSecs 10) [0, 1]).Run _
      ⟨{ running := [], stopping := true, ended := [(1, "stop", .returned)],
         deadline := some (Duration.due 0 (.ofSecs 10)) }, 0, true⟩ :=
    hstop.step (.joined 0 "early" .returned [(1, "stop", .returned)] rfl (.refl _))
  have hlast := hfirst.step (.joined 1 "stop" .returned [] rfl (.refl _))
  exact ⟨_, hlast, isOver_iff.2 ⟨rfl, rfl, rfl⟩, rfl⟩

end GroupWait

end DeviceGateway
