import DeviceGateway.Proofs.Tasks.Reports
import DeviceGateway.Rehearsal.Chores

/-!
# A rehearsed group is waited for promptly

Whatever chores a rehearsal is given, all that the tasks and the wait do in it are steps of a
prompt wait for the group, and the rehearsal ends where the wait is over.
-/

namespace DeviceGateway.Rehearsal.Chores
open GroupWait (Leads)
variable {w v u : Chores} {i : Nat} {c : Chore} {place : Chore.Place}

def wait (w : Chores) : GroupWait := ⟨w.group, w.now, true⟩

/-- Every chore that is not done runs in the group, and nothing that is due lies in the past. -/
structure Tidy (w : Chores) : Prop where
  live : ∀ (i : Nat) (c : Chore) (place : Chore.Place), w.chores[i]? = some (c, place) →
    place ≠ .gone → i ∈ w.group.running
  due : ∀ (i : Nat) (c : Chore) (d : Nat), w.chores[i]? = some (c, .asleep d) → w.now ≤ d
  deadline : ∀ d ∈ w.group.deadline, w.now ≤ d

def Goes (w v : Chores) : Prop := w.wait.Leads v.wait ∧ v.Tidy

theorem Tidy.goes (h : w.Tidy) : w.Goes w := ⟨.refl, h⟩

theorem Goes.trans (h : w.Goes v) (h' : v.Goes u) : w.Goes u := ⟨h.1.trans h'.1, h'.2⟩

theorem getElem?_move (w : Chores) (i j : Nat) (place : Chore.Place) :
    (w.move i place).chores[j]? =
      if i = j then w.chores[j]?.map fun (c, _) => (c, place) else w.chores[j]? := by
  rw [move, List.getElem?_modify]
  split <;> simp

theorem Tidy.move (h : w.Tidy) (hi : i ∈ w.group.running)
    (hdue : ∀ d, place = .asleep d → w.now ≤ d) : (w.move i place).Tidy := by
  refine ⟨fun j c p hj hp => ?_, fun j c d hj => ?_, h.deadline⟩
  · rw [getElem?_move] at hj
    split at hj
    · rename_i heq
      exact heq ▸ hi
    · exact h.live j c p hj hp
  · rw [getElem?_move] at hj
    split at hj
    · obtain ⟨x, -, hx⟩ := Option.map_eq_some_iff.1 hj
      exact hdue d (Prod.ext_iff.1 hx).2
    · exact h.due j c d hj

theorem Tidy.goes_move (h : w.Tidy) (hi : i ∈ w.group.running)
    (hdue : ∀ d, place = .asleep d → w.now ≤ d) : w.Goes (w.move i place) :=
  ⟨.refl, h.move hi hdue⟩

theorem Tidy.goes_requestStop (h : w.Tidy) : w.Goes w.requestStop :=
  ⟨.single ⟨_, .stopRequested, trivial⟩, h.live, h.due, h.deadline⟩

theorem Tidy.goes_finish (h : w.Tidy) (hi : i ∈ w.group.running) (c : Chore) :
    w.Goes (w.finish i c) := by
  have hmove : (w.move i .gone).Tidy := h.move hi (by simp)
  refine ⟨.single ⟨_, .ended i c.name c.ending hi, trivial⟩, fun j c' p hj hp => ?_,
    hmove.due, hmove.deadline⟩
  have hj' := hmove.live j c' p hj hp
  have hne : j ≠ i := by
    rintro rfl
    have hgone : (w.move j .gone).chores[j]? = some (c', p) := hj
    rw [getElem?_move, if_pos rfl] at hgone
    obtain ⟨x, -, hx⟩ := Option.map_eq_some_iff.1 hgone
    exact hp (Prod.ext_iff.1 hx).2.symm
  exact List.mem_filter.2 ⟨hj', by simpa using hne⟩

theorem Tidy.goes_wakeUp (h : w.Tidy) (hi : i ∈ w.group.running) (c : Chore) :
    w.Goes (w.wakeUp i c) := by
  have hend : ∀ v : Chores, w.Goes v → v.group.running = w.group.running →
      w.Goes ({ v with log := (c.name, v.now) :: v.log }.finish i c) := by
    intro v hv hrun
    have hlog : Tidy { v with log := (c.name, v.now) :: v.log } :=
      ⟨hv.2.live, hv.2.due, hv.2.deadline⟩
    exact hv.trans (hlog.goes_finish (by rwa [← hrun] at hi) c)
  rw [wakeUp]
  split
  · exact h.goes_move hi (by simp)
  · split
    · exact hend _ h.goes_requestStop rfl
    · exact hend _ h.goes rfl

theorem Tidy.goes_sleep (h : w.Tidy) (hi : i ∈ w.group.running) (c : Chore) :
    w.Goes (w.sleep i c) := by
  rw [sleep]
  split
  · rename_i d hd
    refine h.goes_move hi ?_
    rintro _ ⟨⟩
    omega
  · exact h.goes_wakeUp hi c

theorem Tidy.goes_poll (h : w.Tidy) (i : Nat) : w.Goes (w.poll i) := by
  rw [poll]
  split
  · exact h.goes
  · rename_i c place hplace
    have hi : place ≠ .gone → i ∈ w.group.running := h.live i c place hplace
    have hbegin : i ∈ w.group.running → w.Goes
        (if c.watches then if w.group.stopping then w.finish i c else w.move i .beforeStop
        else if c.waits && !w.group.stopping then w.move i .beforeStop
        else w.sleep i c) := by
      intro hi
      have hwait : w.Goes (w.move i .beforeStop) := h.goes_move hi (by simp)
      split
      · split
        · exact h.goes_finish hi c
        · exact hwait
      · split
        · exact hwait
        · exact h.goes_sleep hi c
    cases place with
    | start => exact hbegin (hi (by simp))
    | beforeStop => exact hbegin (hi (by simp))
    | asleep d =>
      dsimp only
      split
      · exact h.goes_wakeUp (hi (by simp)) c
      · exact h.goes
    | hung => exact h.goes
    | gone => exact h.goes

theorem Tidy.goes_pollAll (h : w.Tidy) (fuel : Nat) : w.Goes (pollAll fuel w) := by
  induction fuel generalizing w with
  | zero => exact h.goes
  | succ fuel ih =>
    rw [pollAll]
    split
    · exact h.goes
    · rename_i i rest hready
      have hrest : Tidy { w with ready := rest } := ⟨h.live, h.due, h.deadline⟩
      have hpoll : w.Goes ({ w with ready := rest }.poll i) := hrest.goes_poll i
      exact hpoll.trans (ih hpoll.2)

theorem Tidy.goes_join (h : w.Tidy) (hsome : w.group.ended ≠ []) :
    w.Goes { w.requestStop with group := w.group.join w.now } := by
  obtain ⟨⟨id, name, e⟩, rest, hended⟩ := List.exists_cons_of_ne_nil hsome
  have hgroup : { w.wait.group with ended := (id, name, e) :: rest } = w.group := by
    rw [← hended]
    rfl
  have hstep : w.wait.Step (.joined name e) ⟨w.group.join w.now, w.now, true⟩ := by
    have hjoined := GroupWait.Step.joined (w := w.wait) id name e rest rfl (.of_eq hended)
    rwa [hgroup] at hjoined
  have hrunning : (w.group.join w.now).running = w.group.running := by
    simp [TaskGroup.join, hended, TaskGroup.await]
  have hdeadline : (w.group.join w.now).deadline = some (Duration.due w.now w.group.grace) := by
    simp [TaskGroup.join, hended, TaskGroup.await]
  refine ⟨.single ⟨_, hstep, trivial⟩, fun i c place hi hp => ?_, h.due, fun d hd => ?_⟩
  · exact hrunning ▸ h.live i c place hi hp
  · have hd : d ∈ (w.group.join w.now).deadline := hd
    rw [hdeadline, Option.mem_some_iff] at hd
    exact hd ▸ Nat.le_add_right _ _

theorem Tidy.goes_joinAll (h : w.Tidy) (fuel : Nat) : w.Goes (joinAll fuel w) := by
  induction fuel generalizing w with
  | zero => exact h.goes
  | succ fuel ih =>
    rw [joinAll]
    split
    · exact h.goes
    · rename_i hsome
      have hjoin := h.goes_join (by simpa using hsome)
      exact hjoin.trans (ih hjoin.2)

def Turns (w v : Chores) : Prop :=
  w.wait.Leads v.wait ∧ (v.group.isOver = true ∨ v.Tidy)

theorem Goes.turns (h : w.Goes v) : w.Turns v := ⟨h.1, .inr h.2⟩

theorem Goes.turns_trans (h : w.Goes v) (h' : v.Turns u) : w.Turns u := ⟨h.1.trans h'.1, h'.2⟩

theorem Tidy.turns_expire (h : w.Tidy) : w.Turns w.expire := by
  refine ⟨.single ⟨_, .expired rfl, trivial⟩, ?_⟩
  by_cases hdue : w.group.ended.isEmpty ∧ w.group.deadline.any (· ≤ w.now)
  · refine .inl ?_
    have hended : w.group.ended = [] := List.isEmpty_iff.1 hdue.1
    change (w.group.expire w.now).isOver = true
    rw [TaskGroup.expire, if_pos hdue]
    simp [TaskGroup.isOver, hended]
  · refine .inr ?_
    have hsame : w.expire = w := by rw [expire, TaskGroup.expire, if_neg hdue]
    rwa [hsame]

theorem Tidy.le_of_nextMoment? (h : w.Tidy) {t : Nat} (ht : w.nextMoment? = some t) :
    w.now ≤ t ∧ (∀ d ∈ w.group.deadline, t ≤ d) ∧
      ∀ (i : Nat) (c : Chore) (d : Nat), w.chores[i]? = some (c, .asleep d) → t ≤ d := by
  obtain ⟨hmem, hmin⟩ := List.min?_eq_some_iff.1 ht
  refine ⟨?_, fun d hd => hmin d ?_, fun i c d hi => hmin d ?_⟩
  · rcases List.mem_append.1 hmem with hd | hdue
    · exact h.deadline t (Option.mem_toList.1 hd)
    · obtain ⟨⟨c, place⟩, hc, hplace⟩ := List.mem_filterMap.1 hdue
      obtain ⟨i, hi⟩ := List.mem_iff_getElem?.1 hc
      cases place with
      | asleep d =>
        cases hplace
        exact h.due i c t hi
      | _ => cases hplace
  · exact List.mem_append_left _ (Option.mem_toList.2 hd)
  · exact List.mem_append_right _ (List.mem_filterMap.2 ⟨_, List.mem_of_getElem? hi, rfl⟩)

theorem Tidy.turns_jump (h : w.Tidy) (hended : w.group.ended = []) {t : Nat}
    (ht : w.nextMoment? = some t) : w.Turns (w.jump t) := by
  obtain ⟨hnow, hdeadline, hdue⟩ := h.le_of_nextMoment? ht
  have hlate : w.now + (t - w.now) = t := by omega
  have hprompt : w.wait.Prompt (.passed (t - w.now)) := by
    refine fun _ => .inr ⟨hended, fun d hd => ?_⟩
    have hbefore : t ≤ d := hdeadline d hd
    change w.now + (t - w.now) ≤ d
    omega
  have hpass : w.Goes { w with now := t } := by
    refine ⟨.single ⟨_, ?_, hprompt⟩, h.live, hdue, hdeadline⟩
    have hstep := GroupWait.Step.passed (w := w.wait) (t - w.now)
    rwa [show w.wait.now + (t - w.now) = t from hlate] at hstep
  have hexpire := hpass.turns_trans hpass.2.turns_expire
  exact ⟨hexpire.1, hexpire.2.imp_right fun htidy => ⟨htidy.live, htidy.due, htidy.deadline⟩⟩

theorem leads_of_runFrom {fuel : Nat} (hw : w.group.isOver = true ∨ w.Tidy)
    (h : runFrom fuel w = some v) : w.wait.Leads v.wait ∧ v.group.isOver = true := by
  induction fuel generalizing w with
  | zero => cases h
  | succ fuel ih =>
    have hnext : ∀ u, w.Turns u → runFrom fuel u = some v →
        w.wait.Leads v.wait ∧ v.group.isOver = true := fun u hu hrun =>
      (ih hu.2 hrun).imp_left hu.1.trans
    rw [runFrom] at h
    by_cases hover : w.group.isOver = true
    · rw [if_pos hover] at h
      cases h
      exact ⟨.refl, hover⟩
    · have htidy := hw.resolve_left hover
      rw [if_neg hover] at h
      split at h
      · exact hnext _ (htidy.goes_pollAll _).turns h
      · split at h
        · have hjoined := htidy.goes_joinAll (3 * w.chores.length + 1)
          exact hnext _ (hjoined.turns_trans hjoined.2.turns_expire) h
        · rename_i hnone
          split at h
          · cases h
          · rename_i t ht
            exact hnext _ (htidy.turns_jump (by simpa using hnone) ht) h

/-- A rehearsal is a prompt wait for its group, asked to stop beforehand if `stopped`, and what it
gives is the end of the wait. -/
theorem leads_of_run {grace : Duration} {stopped : Bool} {chores : List Chore}
    (h : run grace stopped chores = some w) :
    (GroupWait.start grace (List.range chores.length)).Leads w.wait ∧ w.wait.IsOver := by
  let group : TaskGroup :=
    { grace := grace, running := List.range chores.length, stopping := stopped }
  let first : Chores := { group := group.await 0, chores := chores.map (·, .start),
                          ready := List.range chores.length }
  have hstart : (GroupWait.start grace (List.range chores.length)).Leads first.wait := by
    have hbegun : Leads ⟨group, 0, false⟩ first.wait := .single ⟨_, .begun rfl, trivial⟩
    cases stopped with
    | false => exact hbegun
    | true => exact .head ⟨_, .stopRequested, trivial⟩ hbegun
  have htidy : first.Tidy := by
    refine ⟨fun i c place hi _ => ?_, fun i c d hi => ?_, fun d _ => Nat.zero_le d⟩
    · have hlt : i < chores.length := by simpa [first] using (List.getElem?_eq_some_iff.1 hi).1
      exact List.mem_range.2 hlt
    · simp [first] at hi
  have hexpire := htidy.turns_expire
  obtain ⟨hleads, hover⟩ := leads_of_runFrom (w := first.expire) hexpire.2 h
  exact ⟨(hstart.trans hexpire.1).trans hleads, rfl, hover⟩

theorem result_of_run {grace : Duration} {stopped : Bool} {chores : List Chore}
    (h : run grace stopped chores = some w) :
    ∃ os, (GroupWait.start grace (List.range chores.length)).Run os w.wait ∧
      ((∃ e, w.group.result = .error e) ↔ GroupWait.Blamed os) := by
  obtain ⟨os, hos⟩ := (leads_of_run h).1.run
  exact ⟨os, hos, TaskGroup.result_eq_error_iff.trans hos.told.blames⟩

end DeviceGateway.Rehearsal.Chores
