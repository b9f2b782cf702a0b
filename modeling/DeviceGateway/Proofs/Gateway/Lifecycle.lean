import DeviceGateway.Proofs.Gateway.Running

/-!
# A line that is over has told its whole story

However a line comes to its end, a session that was connected has had its connect and its disconnect
recorded, once each, and only changes between them; a session that never was has had nothing
recorded. Either way the broker holds nothing of it any more.
-/

namespace DeviceGateway.RunningGateway
variable {ι κ : Type} [DecidableEq ι] [DecidableEq κ] {g : Wiring ι} {w₀ w v : RunningGateway ι κ}
variable {m : Move ι} {tr : Trace ι κ} {k : ι}

theorem Step.on_line (hs : Step g w m v) (k : ι) :
    (∃ act t, m = .line k act ∧
      Line.Step (g.queue k) w.services (w.lines k) act t (v.lines k)) ∨
    m.act? k = none ∧ (v.lines k).serving = (w.lines k).serving := by
  cases hs with
  | @line j act t l hl =>
    by_cases hjk : j = k
    · subst hjk
      exact .inl ⟨act, t, rfl, by simpa using hl⟩
    · exact .inr ⟨by simp [Move.act?, hjk], by simp [Function.update_of_ne (Ne.symm hjk)]⟩
  | deliver j | sent j =>
    refine .inr ⟨rfl, ?_⟩
    by_cases hjk : j = k
    · subst hjk
      simp [setWriter, setQueue]
    · simp [setWriter, setQueue, Function.update_of_ne (Ne.symm hjk)]
  | _ => exact .inr ⟨rfl, rfl⟩

def visited (w₀ : RunningGateway ι κ) (tr : Trace ι κ) : List (RunningGateway ι κ) := w₀ :: tr.map
    (·.2)

omit [DecidableEq ι] [DecidableEq κ] in
theorem visited_concat (w₀ : RunningGateway ι κ) (tr : Trace ι κ) (m : Move ι)
    (v : RunningGateway ι κ) :
    visited w₀ (tr ++ [(m, v)]) = visited w₀ tr ++ [v] := by
  simp [visited]

omit [DecidableEq ι] [DecidableEq κ] in
theorem mem_visited_append (hv : v ∈ visited w₀ tr) (more : Trace ι κ) :
    v ∈ visited w₀ (tr ++ more) := by
  rw [visited, List.map_append, ← List.cons_append]
  exact List.mem_append_left _ hv

theorem Run.mem_visited (hr : Run g w₀ tr w) : w ∈ visited w₀ tr := by
  induction hr with
  | start => exact List.mem_cons_self
  | step hr hs ih =>
    rw [visited_concat]
    exact List.mem_append_right _ (List.mem_singleton_self _)

theorem Run.engaged (hr : Run g w₀ tr w) (hb : w₀.Begins g)
    (hv : ∃ v ∈ visited w₀ tr, (v.lines k).Connected) : (w.lines k).Engaged (acts k tr) := by
  induction hr with
  | start =>
    obtain ⟨v, hv, hconnected⟩ := hv
    rw [List.mem_singleton.1 hv] at hconnected
    exact .inr hconnected
  | @step tr w v m hr hs ih =>
    obtain ⟨u, hu, hconnected⟩ := hv
    rw [visited_concat] at hu
    rcases List.mem_append.1 hu with hu | hu
    · have hengaged := ih ⟨u, hu, hconnected⟩
      rw [acts_concat]
      rcases hs.on_line k with ⟨act, t, rfl, hline⟩ | ⟨hact, hserving⟩
      · have hsound := (hr.sound hb).lines k
        simpa [Move.act?] using hsound.engaged_step hline hengaged
      · rw [hact, Option.toList_none, List.append_nil]
        rwa [Line.Engaged, Line.Connected, hserving]
    · rw [List.mem_singleton.1 hu] at hconnected
      exact .inr hconnected

theorem Run.connected_of_operations (hr : Run g w₀ tr w) (hb : w₀.Begins g)
    (hops : operations (made (acts k tr)) ≠ []) : ∃ v ∈ visited w₀ tr, (v.lines k).Connected := by
  induction hr with
  | start => exact absurd rfl hops
  | @step tr w v m hr hs ih =>
    by_cases hsilent : operations (made (acts k tr)) = []
    · rw [acts_concat] at hops
      rcases hs.on_line k with ⟨act, t, rfl, hline⟩ | ⟨hact, -⟩
      · have hsound := (hr.sound hb).lines k
        have hloud : operations (made (acts k tr ++ [act])) ≠ [] := by
          simpa [Move.act?] using hops
        exact ⟨w, mem_visited_append hr.mem_visited _, hsound.starts hline hsilent hloud⟩
      · rw [hact, Option.toList_none, List.append_nil] at hops
        exact absurd hsilent hops
    · obtain ⟨u, hu, hconnected⟩ := ih hsilent
      exact ⟨u, mem_visited_append hu _, hconnected⟩

/-- Once the serving of a line returned, or what was left of it is done, the session was recorded
from its connect to its disconnect if it ever was connected, and not at all otherwise; and none of
its registrations is left. -/
theorem story_complete_of_over (hb : w₀.Begins g) (hr : Run g w₀ tr w)
    (ho : (w.lines k).standing.isOver = true) :
    ((∃ v ∈ visited w₀ tr, (v.lines k).Connected) →
      ∃ changes, (recorded (acts k tr)).map (·.operation) = .connect :: changes ++ [.disconnect] ∧
        ∀ o ∈ changes, o = .subscribe ∨ o = .unsubscribe) ∧
    ((∀ v ∈ visited w₀ tr, ¬ (v.lines k).Connected) → recorded (acts k tr) = []) ∧
    ∀ r ∈ w.services.broker.registrations, r.owner ≠ g.owner k := by
  have hsound := hr.sound hb
  have hline := hsound.lines k
  refine ⟨fun hv => ?_, fun hnever => ?_, fun r hmem howner => ?_⟩
  · have hops := hline.operations_of_over ho (hr.engaged hb hv)
    rcases hline.ended ho with ⟨hnone, -⟩ | ⟨htold, -⟩
    · exact absurd hnone hops
    · rwa [operations_made] at htold
  · by_cases hops : operations (made (acts k tr)) = []
    · rw [operations_made] at hops
      exact List.map_eq_nil_iff.1 hops
    · obtain ⟨v, hv, hconnected⟩ := hr.connected_of_operations hb hops
      exact absurd hconnected (hnever v hv)
  -- Whoever holds a registration under the name of this line is this line, and it holds none.
  · rcases hsound.registered r hmem with ⟨⟨client, hclient⟩, -⟩ | ⟨j, hj⟩
    · exact g.owner_ne_observe k client (hclient.symm.trans howner)
    · have hjk := g.owner_inj (hj.stands.owner.symm.trans howner)
      subst hjk
      exact hline.not_holds_of_over ho hj

theorem story_complete_of_single : ∃ (w : RunningGateway Unit Empty) (tr : Trace Unit Empty),
    single.Begins singleWiring ∧ Run singleWiring single tr w ∧
    (w.lines ()).standing.isOver = true ∧ (∃ v ∈ visited single tr, (v.lines ()).Connected) ∧
    (∃ changes, (recorded (acts () tr)).map (·.operation) = .connect :: changes ++ [.disconnect] ∧
      ∀ o ∈ changes, o = .subscribe ∨ o = .unsubscribe) ∧
    ∀ r ∈ w.services.broker.registrations, r.owner ≠ singleWiring.owner () := by
  obtain ⟨tr, hr, -⟩ := run_single
  have hstart : Line.Path 0 single.services { serving := .reading singleSession, writer := .idle } []
      single.services { serving := .reading singleSession, writer := .idle } := .start
  obtain ⟨as, hpath⟩ := hstart.leaves rfl rfl rfl rfl (rfl : singleSession.client = some ⟨"a"⟩) ⟨0, 0⟩
  obtain ⟨more, hover, -⟩ := hr.path (k := ()) hpath
  rw [Function.update_eq_const_of_subsingleton] at hover
  have hconnected : ∃ v ∈ visited single (tr ++ more), (v.lines ()).Connected :=
    ⟨_, mem_visited_append hr.mem_visited more, _, rfl, rfl⟩
  obtain ⟨hstory, -, hgone⟩ := story_complete_of_over (k := ()) begins_single hover rfl
  exact ⟨_, _, begins_single, hover, rfl, hconnected, hstory hconnected, hgone⟩

end DeviceGateway.RunningGateway
