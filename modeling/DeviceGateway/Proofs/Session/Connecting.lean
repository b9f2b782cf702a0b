import DeviceGateway.Proofs.Session.SharedSessions

/-!
# Hooks that run to their end

An idle session can run any hook whose grants it was given, from start to end, if the services
answer each of its calls at once. In particular a session that has not begun can go through its
first two hooks, whatever has happened, if those it calls allow it.
-/

namespace DeviceGateway.SharedSessions
variable {ι : Type} [DecidableEq ι] {lends : ClientId → ClientId → Prop} {deeds : List (Deed ι)}
variable {w₀ w v : SharedSessions ι}

theorem Run.once (hr : Run lends w₀ deeds w) {k : ι} (hidle : (w.states k).doing = none)
    {hook : Hook} (hgrants : hook.grants = []) {m : Moments} {s t : Session} {c : Call}
    (hc : c.isAwaited = true)
    {f : c.Reply → Work Session (Session × Except GatewayError (List Grant))}
    (hwork : hook.work w.services.settings m (w.states k).queue (w.states k).session = .call s c f)
    {r : c.Reply} {x : Except GatewayError (List Grant)} (hf : f r = .done (t, x)) :
    ∃ v, Run lends w₀ (deeds ++ [.start k hook] ++ [.hear k c r] ++ [.finish k]) v ∧
      v.states k = ⟨t, (w.states k).queue, none⟩ ∧ (∀ j, j ≠ k → v.states j = w.states j) ∧
      v.issued = w.issued ++ given (w.states k).session x ∧ v.services = w.services := by
  have hstart := hr.step (.start k hook m hidle (by simp [hgrants]))
  have hheard := hstart.step (.hear k (by simp [setState]; rfl) hwork
    (.awaited hc r .refl rfl rfl rfl))
  have hdone := hheard.step (.finish k (by simp [setState]; rfl) hf)
  exact ⟨_, hdone, by simp [setState], fun j hj => by simp [setState, hj], by simp [setState], rfl⟩

/-- What the services make of a hook of session `k`, unless it crashes. The session has to be idle
and to hold the grants that it hands in. -/
def perform (w : SharedSessions ι) (k : ι) (hook : Hook) : Option (SharedSessions ι) :=
  let x := w.states k
  if x.doing.isNone ∧ ∀ g ∈ hook.grants, ∃ i ∈ w.issued,
      i.grant = g ∧ x.session.connected? = some i.client then
    match (hook.work w.services.settings (fun _ => ⟨0, 0⟩) x.queue x.session).run
        (Services.answer 0) w.services with
    | (t, .answer (s, r)) => some { w.setState k ⟨s, x.queue, none⟩ with
        services := t, issued := w.issued ++ given x.session r }
    | (_, .crash) => none
  else none

def performAll (w : SharedSessions ι) : List (ι × Hook) → Option (SharedSessions ι)
  | [] => some w
  | (k, hook) :: rest => (w.perform k hook).bind fun v => performAll v rest

theorem Run.answered {d : Doing} {s : Session} {r : Except GatewayError (List Grant)} {k : ι}
    {now : Nat} {t : Services} (hr : Run lends w₀ deeds w) (hd : (w.states k).doing = some d)
    (hrun : d.work.run (Services.answer now) w.services = (t, .answer (s, r))) :
    ∃ more, Run lends w₀ more { w.setState k ⟨s, (w.states k).queue, none⟩ with
      services := t, issued := w.issued ++ given (w.states k).session r } := by
  obtain ⟨hook, heard, work⟩ := d
  induction work generalizing w deeds heard with
  | done x =>
    simp only [Activity.run, Prod.mk.injEq, Outcome.answer.injEq] at hrun
    obtain ⟨rfl, rfl⟩ := hrun
    exact ⟨_, hr.step (.finish k hd rfl)⟩
  | call x c f ih =>
    simp only [Activity.run] at hrun
    split at hrun
    · rename_i u reply hanswer
      have hheard := hr.step (.hear k hd rfl (Services.answers_of_answer hanswer))
      obtain ⟨more, hmore⟩ := ih reply hheard _ (by rw [states_setState, if_pos rfl]) hrun
      exact ⟨more, by simpa [setState] using hmore⟩
    · cases hrun

theorem Run.performs (hr : Run lends w₀ deeds w) (hown : ∀ client, lends client client) {k : ι}
    {hook : Hook} (h : w.perform k hook = some v) : ∃ more, Run lends w₀ more v := by
  simp only [perform] at h
  split at h
  · rename_i hready
    obtain ⟨hidle, hgrants⟩ := hready
    split at h
    · rename_i t s r hrun
      cases h
      have hhands : ∀ g ∈ hook.grants, ∃ i ∈ w.issued, i.grant = g ∧
          ∀ client, (w.states k).session.connected? = some client → lends i.client client := by
        intro g hg
        obtain ⟨i, hi, higrant, hclient⟩ := hgrants g hg
        refine ⟨i, hi, higrant, fun client hc => ?_⟩
        rw [Option.some.inj (hclient.symm.trans hc)]
        exact hown client
      have hstart := hr.step
        (.start k hook (fun _ => ⟨0, 0⟩) (Option.isNone_iff_eq_none.1 hidle) hhands)
      obtain ⟨more, hmore⟩ :=
        hstart.answered (k := k) (by rw [states_setState, if_pos rfl]) hrun
      exact ⟨more, by simpa [setState] using hmore⟩
    · cases h
  · cases h

theorem Run.performsAll (hr : Run lends w₀ deeds w) (hown : ∀ client, lends client client)
    {hooks : List (ι × Hook)} (h : w.performAll hooks = some v) :
    ∃ more, Run lends w₀ more v := by
  induction hooks generalizing w deeds with
  | nil =>
    cases h
    exact ⟨deeds, hr⟩
  | cons x rest ih =>
    obtain ⟨k, hook⟩ := x
    obtain ⟨u, hu, h⟩ := Option.bind_eq_some_iff.1 h
    obtain ⟨more, hmore⟩ := hr.performs hown hu
    exact ih hmore h

omit [DecidableEq ι] in
def AsksFor (p : ClientId) (deeds : List (Deed ι)) : Prop :=
  ∀ client channel action, Permitted deeds client channel action → client = p

theorem Run.connects (hr : Run lends w₀ deeds w) {k : ι} (hidle : (w.states k).doing = none)
    {name : String} {protocol : Protocol} (hs : (w.states k).session = .start name protocol)
    (client : ClientId) {p : ClientId} (hp : AsksFor p deeds) :
    ∃ v more, Run lends w₀ more v ∧ AsksFor p more ∧ (v.states k).doing = none ∧
      (v.states k).session.connected? = some client ∧ (∀ j, j ≠ k → v.states j = w.states j) ∧
      v.issued = w.issued ∧ v.services = w.services := by
  let m : Moments := fun _ => ⟨0, 0⟩
  let s : Session := { Session.start name protocol with
    phase := .connecting, secret := "secret", client := some client }
  obtain ⟨u, hu, hstate, hothers, hissued, hservices⟩ := hr.once hidle
    (rfl : (Hook.authConnect "secret").grants = []) (m := m) (c := .identify "secret") rfl
    (by rw [hs]; rfl) (r := .ok client) (t := s) (x := .ok []) rfl
  obtain ⟨v, hv, hstate', hothers', hissued', hservices'⟩ := hu.once (k := k) (by rw [hstate])
    (rfl : Hook.connect.grants = []) (m := m)
    (c := .record (.ofSession .connect client protocol u.services.settings.instanceName (m 0))) rfl
    (by rw [hstate]; rfl) (r := .ok ()) (x := .ok [])
    (t := { s with phase := .connected, connectedAt := some (m 0) }) rfl
  refine ⟨v, _, hv, ?_, by rw [hstate'], by rw [hstate']; rfl, fun j hj => ?_, ?_,
    hservices'.trans hservices⟩
  · rintro q channel action ⟨j, hj⟩
    exact hp q channel action ⟨j, by simpa using hj⟩
  · rw [hothers' j hj, hothers j hj]
  · simp [hissued', hissued, hstate, hs, given, Session.start, Session.connected?, s]

end DeviceGateway.SharedSessions
