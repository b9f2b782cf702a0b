import DeviceGateway.Proofs.Tasks.Reports

/-!
# What comes of a group

The first join that finds a failure decides what the wait returns. A failure is an error, a crash or
a return that nobody had asked for when it was joined. The join of a task asks the others to stop,
so only the first one can find a return of that kind. Whoever is cut off is not joined and so is not
to blame for anything.
-/

namespace DeviceGateway

namespace TaskGroup

theorem result_eq_iff_failure {g : TaskGroup} {error : GatewayError} :
    g.result = .error error ↔ g.failure = some error := by
  rw [result]
  cases g.failure <;> simp

theorem result_eq_ok_iff_failure {g : TaskGroup} : g.result = .ok () ↔ g.failure = none := by
  rw [result]
  cases g.failure <;> simp

theorem failure_expire (g : TaskGroup) (now : Nat) : (g.expire now).failure = g.failure := by
  rw [expire]
  split
  · rfl
  · rfl

end TaskGroup

namespace GroupWait
variable {w v : GroupWait} {o : Occurrence} {os : List Occurrence} {grace : Duration}
  {ids : List Nat}
variable {name : String} {e : TaskEnd} {error other : GatewayError} {i j : Nat}

def Occurrence.end? : Occurrence → Option (String × TaskEnd)
  | ended _ name e => some (name, e)
  | _ => none

def Occurrence.join? : Occurrence → Option (String × TaskEnd)
  | joined name e => some (name, e)
  | _ => none

/-- Nobody has asked the tasks to stop, and no task has been joined. -/
def Unasked (os : List Occurrence) : Prop :=
  .stopRequested ∉ os ∧ ∀ name e, .joined name e ∉ os

/-- The task that is joined after `before` failed, and why. -/
inductive Fails (before : List Occurrence) (name : String) : TaskEnd → GatewayError → Prop
  | failed (error : GatewayError) : Fails before name (.failed error) error
  | crashed : Fails before name .crashed (.stopped .crashed)
  | unasked (h : Unasked before) : Fails before name .returned (.stopped (.returned name))

def FailsAt (os : List Occurrence) (i : Nat) (error : GatewayError) : Prop :=
  ∃ name e, os[i]? = some (.joined name e) ∧ Fails (os.take i) name e error

def FirstFailure (os : List Occurrence) (error : GatewayError) : Prop :=
  ∃ i, FailsAt os i error ∧ ∀ j < i, ∀ other, ¬FailsAt os j other

theorem unasked_iff : Unasked os ↔ os.any Occurrence.requests = false := by
  rw [List.any_eq_false]
  constructor
  · intro ⟨hstop, hjoin⟩ o ho
    cases o with
    | stopRequested => exact absurd ho hstop
    | joined name e => exact absurd ho (hjoin name e)
    | _ => simp [Occurrence.requests]
  · intro h
    exact ⟨fun ho => h _ ho rfl, fun name e ho => h _ ho rfl⟩

theorem fault?_eq_some_iff :
    TaskGroup.fault? (os.any Occurrence.requests) name e = some error ↔ Fails os name e error := by
  constructor
  · intro h
    cases e with
    | returned =>
      simp only [TaskGroup.fault?] at h
      split at h
      · cases h
      · rename_i hasked
        cases h
        exact .unasked (unasked_iff.2 (by simpa using hasked))
    | failed e =>
      cases h
      exact .failed error
    | crashed =>
      cases h
      exact .crashed
  · intro h
    cases h with
    | failed => rfl
    | crashed => rfl
    | unasked h => rw [unasked_iff.1 h]; rfl

theorem FailsAt.lt (h : FailsAt os i error) : i < os.length := by
  obtain ⟨name, e, hi, -⟩ := h
  exact (List.getElem?_eq_some_iff.1 hi).1

theorem failsAt_concat : FailsAt (os ++ [o]) i error ↔ FailsAt os i error ∨
    i = os.length ∧ ∃ name e, o = .joined name e ∧ Fails os name e error := by
  by_cases hi : i < os.length
  · have hne : i ≠ os.length := by omega
    simp only [FailsAt, List.getElem?_append_left hi,
      List.take_append_of_le_length (Nat.le_of_lt hi),
      hne, false_and, or_false]
  · have hold : ¬FailsAt os i error := fun h => hi h.lt
    by_cases hlast : i = os.length
    · subst hlast
      simp [FailsAt]
    · have hnone : (os ++ [o])[i]? = none := by
        rw [List.getElem?_eq_none_iff, List.length_append, List.length_singleton]
        omega
      refine iff_of_false ?_ (not_or.2 ⟨hold, fun h => hlast h.1⟩)
      intro ⟨name, e, hi, _⟩
      rw [hnone] at hi
      cases hi

theorem exists_firstFailure (h : FailsAt os i error) : ∃ error, FirstFailure os error := by
  induction i using Nat.strongRecOn generalizing error with
  | ind i ih =>
    by_cases hbefore : ∃ j < i, ∃ other, FailsAt os j other
    · obtain ⟨j, hj, other, hother⟩ := hbefore
      exact ih j hj hother
    · exact ⟨error, i, h, fun j hj other hother => hbefore ⟨j, hj, other, hother⟩⟩

theorem firstFailure_concat : FirstFailure (os ++ [o]) error ↔ FirstFailure os error ∨
    (∀ i other, ¬FailsAt os i other) ∧ ∃ name e, o = .joined name e ∧ Fails os name e error := by
  constructor
  · intro ⟨i, hi, hfirst⟩
    rcases failsAt_concat.1 hi with hold | ⟨rfl, hnew⟩
    · exact .inl ⟨i, hold, fun j hj other h => hfirst j hj other (failsAt_concat.2 (.inl h))⟩
    · exact .inr ⟨fun j other h => hfirst j h.lt other (failsAt_concat.2 (.inl h)), hnew⟩
  · intro h
    rcases h with ⟨i, hi, hfirst⟩ | ⟨hnone, hnew⟩
    · refine ⟨i, failsAt_concat.2 (.inl hi), fun j hj other h => ?_⟩
      rcases failsAt_concat.1 h with hold | ⟨rfl, -⟩
      · exact hfirst j hj other hold
      · exact absurd hi.lt (by omega)
    · refine ⟨os.length, failsAt_concat.2 (.inr ⟨rfl, hnew⟩), fun j hj other h => ?_⟩
      rcases failsAt_concat.1 h with hold | ⟨rfl, -⟩
      · exact hnone j other hold
      · exact absurd hj (Nat.lt_irrefl _)

structure Decides (os : List Occurrence) (w : GroupWait) : Prop where
  failure : ∀ error, w.group.failure = some error ↔ FirstFailure os error
  ends : (os.filterMap Occurrence.end?).Perm
    (os.filterMap Occurrence.join? ++ w.group.ended.map (·.2))
  deadline : w.group.deadline ≠ none → w.group.stopping = true
  present : w.group.running ≠ [] ∨ w.group.ended ≠ [] ∨ w.group.stopping = true

theorem Decides.failure_eq_none_iff (h : w.Decides os) :
    w.group.failure = none ↔ ∀ i other, ¬FailsAt os i other := by
  constructor
  · intro hnone i other hi
    obtain ⟨error, hfirst⟩ := exists_firstFailure hi
    rw [(h.failure error).2 hfirst] at hnone
    cases hnone
  · intro hnone
    apply Option.eq_none_iff_forall_ne_some.2
    intro error herror
    obtain ⟨i, hi, -⟩ := (h.failure error).1 herror
    exact hnone i error hi

theorem Decides.join (h : w.Decides os) (htold : w.Told os) (id : Nat) (name : String) (e : TaskEnd)
    (rest : List (Nat × String × TaskEnd)) (hended : w.group.ended.Perm ((id, name, e) :: rest)) :
    Decides (os ++ [.joined name e])
      { w with group := { w.group with ended := (id, name, e) :: rest }.join w.now } := by
  refine ⟨fun error => ?_, ?_, fun _ => rfl, .inr (.inr rfl)⟩
  · have hor : w.group.failure.or (TaskGroup.fault? w.group.stopping name e) = some error ↔
        FirstFailure (os ++ [.joined name e]) error := by
      rw [Option.or_eq_some_iff, h.failure, h.failure_eq_none_iff, htold.stopping,
        fault?_eq_some_iff, firstFailure_concat]
      refine or_congr_right (and_congr_right fun _ => ⟨fun h => ⟨name, e, rfl, h⟩, ?_⟩)
      rintro ⟨_, _, ⟨⟩, h⟩
      exact h
    exact hor
  · have hends : (os.filterMap Occurrence.end?).Perm
        (os.filterMap Occurrence.join? ++ ((name, e) :: rest.map (·.2))) :=
      h.ends.trans ((hended.map _).append_left _)
    simpa [List.filterMap_cons, Occurrence.end?, Occurrence.join?, TaskGroup.join,
      TaskGroup.await] using hends

theorem Decides.step (h : w.Decides os) (htold : w.Told os) (hstep : w.Step o v) :
    v.Decides (os ++ [o]) := by
  have hfailure : (∀ name e, o ≠ .joined name e) → ∀ error,
      w.group.failure = some error ↔ FirstFailure (os ++ [o]) error := by
    intro ho error
    rw [firstFailure_concat, h.failure, or_iff_left]
    rintro ⟨-, name, e, hjoined, -⟩
    exact ho name e hjoined
  have hends : o.end? = none → o.join? = none → ((os ++ [o]).filterMap Occurrence.end?).Perm
      ((os ++ [o]).filterMap Occurrence.join? ++ w.group.ended.map (·.2)) := by
    intro hend hjoin
    simpa [hend, hjoin] using h.ends
  cases hstep with
  | ended id name e hid =>
    refine ⟨hfailure (by simp), ?_, h.deadline, .inr (.inl (by simp [TaskGroup.finish]))⟩
    simpa [List.filterMap_cons, Occurrence.end?, Occurrence.join?, TaskGroup.finish] using
      h.ends.append_right [(name, e)]
  | stopRequested =>
    exact ⟨hfailure (by simp), hends rfl rfl, fun _ => rfl, .inr (.inr rfl)⟩
  | begun hw =>
    refine ⟨hfailure (by simp), hends rfl rfl, fun hd => ?_, h.present⟩
    by_cases hstop : w.group.stopping = true
    · exact hstop
    · simp [TaskGroup.await, hstop] at hd
  | joined id name e rest hw hended => exact h.join htold id name e rest hended
  | expired hw =>
    simp only [TaskGroup.expire]
    split
    · rename_i hdue
      have hd : w.group.deadline ≠ none := by
        intro hnone
        simp [hnone] at hdue
      exact ⟨hfailure (by simp), hends rfl rfl, h.deadline, .inr (.inr (h.deadline hd))⟩
    · exact ⟨hfailure (by simp), hends rfl rfl, h.deadline, h.present⟩
  | passed t => exact ⟨hfailure (by simp), hends rfl rfl, h.deadline, h.present⟩

theorem Run.decides (h : (start grace ids).Run os w) (hids : ids ≠ []) : w.Decides os := by
  induction h with
  | here =>
    refine ⟨fun error => ?_, by simp [start], fun hd => absurd rfl hd, .inl hids⟩
    simp [start, FirstFailure, FailsAt]
  | step hrun hstep ih => exact ih.step hrun.told hstep

theorem Step.failure_eq (hstep : w.Step o v) (h : w.group.failure = some error) :
    v.group.failure = some error := by
  cases hstep with
  | joined id name e rest hw hended =>
    exact TaskGroup.failure_join_of_some (g := { w.group with ended := (id, name, e) :: rest }) h _
  | expired hw => exact (w.group.failure_expire w.now).trans h
  | _ => exact h

/-- What a wait returns is decided by the joins alone: the first failure that one of them finds, or
nothing if none does. A later failure, the cut and the tasks that are cut off change nothing about
it. -/
theorem outcome_decided (hids : ids ≠ []) (hrun : (start grace ids).Run os w) :
    (∀ error, w.group.result = .error error ↔ FirstFailure os error) ∧
    (w.group.result = .ok () ↔ ∀ i error, ¬FailsAt os i error) ∧
    (∀ o v error, w.Step o v → w.group.result = .error error → v.group.result = .error error) ∧
    (w.group.stopping = false ↔ Unasked os) ∧
    (∀ i name error, os[i]? = some (.joined name .returned) → FailsAt os i error →
      ∀ j < i, ∀ name e, os[j]? ≠ some (.joined name e)) ∧
    (∀ v, w.Step .expired v → v.group.result = w.group.result) ∧
    (w.waiting = true → (∃ id name e, .ended id name e ∈ os) → ∃ latest, w.ReturnsBy latest) ∧
    (w.IsOver → w.group.stopping = true ∧ w.group.running = [] ∧
      (os.filterMap Occurrence.end?).Perm (os.filterMap Occurrence.join?)) := by
  have hdecides := hrun.decides hids
  have htold := hrun.told
  refine ⟨fun error => ?_, ?_, fun o v error hstep herror => ?_, ?_,
    fun i name error hi hfails j hj name' e hj' => ?_, fun v hstep => ?_, fun hw hended => ?_,
    fun hover => ?_⟩
  · rw [TaskGroup.result_eq_iff_failure, hdecides.failure]
  · rw [TaskGroup.result_eq_ok_iff_failure, hdecides.failure_eq_none_iff]
  · apply TaskGroup.result_eq_iff_failure.2
    exact hstep.failure_eq (TaskGroup.result_eq_iff_failure.1 herror)
  · rw [unasked_iff, htold.stopping]
  · obtain ⟨_, _, hjoined, hwhy⟩ := hfails
    rw [hi] at hjoined
    cases hjoined
    cases hwhy with
    | unasked h =>
      apply h.2 name' e
      exact List.mem_iff_getElem?.2 ⟨j, by rw [List.getElem?_take_of_lt hj, hj']⟩
  · cases hstep with
    | expired hw => simp only [TaskGroup.result, TaskGroup.failure_expire]
  · exact exists_returnsBy hw ((htold.awaits hended).imp_right And.left)
  · obtain ⟨-, hrunning, hended⟩ := isOver_iff.1 hover
    refine ⟨?_, hrunning, ?_⟩
    · rcases hdecides.present with hsome | hsome | hstop
      · exact absurd hrunning hsome
      · exact absurd hended hsome
      · exact hstop
    · have hends := hdecides.ends
      rw [hended, List.map_nil, List.append_nil] at hends
      exact hends

theorem outcome_decided_of_three : ∃ os w, [0, 1, 2] ≠ [] ∧
    (start (.ofMillis 1000) [0, 1, 2]).Run os w ∧ w.IsOver ∧
    w.group.result = .error (.stopped (.returned "early")) ∧ w.group.stopping = true := by
  have hbegun : (start (.ofMillis 1000) [0, 1, 2]).Run [.begun] _ := .step .here (.begun rfl)
  have hearly : (start (.ofMillis 1000) [0, 1, 2]).Run _
      ⟨{ grace := .ofMillis 1000, running := [1, 2], stopping := true,
         deadline := some (Duration.due 0 (.ofMillis 1000)),
         failure := some (.stopped (.returned "early")) }, 0, true⟩ :=
    (hbegun.step (.ended 0 "early" .returned (by decide))).step
      (.joined 0 "early" .returned [] rfl (.refl _))
  have hbroken : (start (.ofMillis 1000) [0, 1, 2]).Run _
      ⟨{ grace := .ofMillis 1000, running := [2], stopping := true,
         deadline := some (Duration.due 0 (.ofMillis 1000)),
         failure := some (.stopped (.returned "early")) }, 0, true⟩ :=
    (hearly.step (.ended 1 "broken" (.failed .notConnected) (by decide))).step
      (.joined 1 "broken" (.failed .notConnected) [] rfl (.refl _))
  have hcut := (hbroken.step (.passed 1000)).step (.expired rfl)
  have h := outcome_decided (by decide) hcut
  refine ⟨_, _, by decide, hcut, ?hover, ?_, (h.2.2.2.2.2.2.2 ?hover).1⟩
  · exact isOver_iff.2 ⟨rfl, by decide, by decide⟩
  · refine (h.1 _).2 ⟨2, ⟨"early", .returned, rfl, .unasked ⟨?_, ?_⟩⟩, ?_⟩
    · simp
    · simp
    · intro j hj other ⟨name, e, hjoined, _⟩
      match j, hj with
      | 0, _ => cases hjoined
      | 1, _ => cases hjoined

end GroupWait

end DeviceGateway
