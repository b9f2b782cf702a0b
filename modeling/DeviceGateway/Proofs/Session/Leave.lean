import DeviceGateway.Proofs.Session.Connecting

/-!
# For whom the leave was given

A grant names a channel and an action but no client, so what is published or registered was allowed
by the policy, for that channel and action, for a client whose grants could be lent to the session.
It was allowed for the very client of the session in every run exactly if grants are never lent to
another client.
-/

namespace DeviceGateway.SharedSessions
variable {ι : Type} {lends : ClientId → ClientId → Prop} {deeds : List (Deed ι)}
  {w₀ w : SharedSessions ι}

def Asks (w : SharedSessions ι) (k : ι) (c : Call) : Prop :=
  ∃ d s f, (w.states k).doing = some d ∧ d.work = .call s c f

/-- Whatever is being published or registered was allowed before, for exactly the client whose
session does it, that channel and that action. -/
structure Exact (deeds : List (Deed ι)) (w : SharedSessions ι) : Prop where
  publish : ∀ k subject message, w.Asks k (.publish subject message) →
    Permitted deeds message.publisher message.channel .publish
  register : ∀ k owner entries queue client, w.Asks k (.register owner entries queue) →
    (w.states k).session.client = some client → ∀ e ∈ entries, ∃ c,
      Topic.parseFilter e.2 = .ok c ∧ Permitted deeds client c.id .subscribe

theorem Sound.publish (h : Sound lends w₀ deeds w) {k : ι} {subject : String} {message : Message}
    (hasks : w.Asks k (.publish subject message)) :
    ∃ client, lends client message.publisher ∧
      Permitted deeds client message.channel .publish := by
  obtain ⟨d, s, f, hd, hw⟩ := hasks
  have hdoing := (h.states k).doing d hd
  have hobeys := hdoing.obeys
  rw [hw] at hobeys
  rcases hobeys.1 with hc | hc
  · cases hc with
    | publish hs hg ha lead payload m =>
      obtain ⟨i, hi, rfl, hlends⟩ := hdoing.handed _ hg
      refine ⟨i.client, hlends _ hs, ?_⟩
      have hp := (h.issued i hi).2
      rwa [ha] at hp
  · cases hc

theorem Sound.register (h : Sound lends w₀ deeds w) {k : ι} {owner : String}
    {entries : List (String × String)} {queue : QueueId} {client : ClientId}
    (hasks : w.Asks k (.register owner entries queue))
    (hclient : (w.states k).session.client = some client) :
    ∀ e ∈ entries, ∃ c, Topic.parseFilter e.2 = .ok c ∧
      ∃ lender, lends lender client ∧ Permitted deeds lender c.id .subscribe := by
  obtain ⟨d, s, f, hd, hw⟩ := hasks
  obtain ⟨-, -, client', hs, hentries⟩ := entries_of_register ((h.states k).doing d hd) hw
  have hsame : client' = client :=
    Option.some.inj ((Session.connected?_eq_some_iff.1 hs).2.symm.trans hclient)
  subst hsame
  intro e he
  obtain ⟨i, hi, ha, hlends, rfl⟩ := hentries e he
  obtain ⟨hread, hp⟩ := h.issued i hi
  exact ⟨i.grant.channel, parseFilter_of_readable hread ha, i.client, hlends, ha ▸ hp⟩

theorem Sound.exact (h : Sound (· = ·) w₀ deeds w) : Exact deeds w where
  publish := fun k subject message hasks => by
    obtain ⟨client, rfl, hp⟩ := h.publish hasks
    exact hp
  register := fun k owner entries queue client hasks hclient e he => by
    obtain ⟨c, hc, lender, rfl, hp⟩ := h.register hasks hclient e he
    exact ⟨c, hc, hp⟩

variable [DecidableEq ι]

theorem Run.mono {lends' : ClientId → ClientId → Prop} (hl : ∀ p q, lends p q → lends' p q)
    (hr : Run lends w₀ deeds w) : Run lends' w₀ deeds w := by
  induction hr with
  | start => exact .start
  | step _ hs ih =>
    refine ih.step ?_
    cases hs with
    | start k hook m hidle hhands =>
      refine .start k hook m hidle fun g hg => ?_
      obtain ⟨i, hi, hig, hc⟩ := hhands g hg
      exact ⟨i, hi, hig, fun client hs => hl _ _ (hc client hs)⟩
    | hear k hd hw ht => exact .hear k hd hw ht
    | finish k hd hw => exact .finish k hd hw
    | giveUp k hd hw => exact .giveUp k hd hw
    | elsewhere ht => exact .elsewhere ht

theorem Run.grants (hr : Run lends w₀ deeds w) {k : ι} (hidle : (w.states k).doing = none)
    {p : ClientId} (hs : (w.states k).session.connected? = some p) (hp : AsksFor p deeds)
    (id : ChannelId) :
    ∃ v more, Run lends w₀ more v ∧ AsksFor p more ∧ (∀ j, j ≠ k → v.states j = w.states j) ∧
      (⟨p, ⟨⟨id, ""⟩, .publish⟩⟩ : Issued) ∈ v.issued := by
  have hparse : Topic.parse (Topic.edgeTopic id "") = .ok ⟨id, ""⟩ :=
    @Topic.parse_edgeTopic ⟨id, ""⟩ [] (by simp) rfl
  obtain ⟨v, hv, -, hothers, hissued, -⟩ := hr.once hidle
    (rfl : (Hook.authPublish (Topic.edgeTopic id "")).grants = []) (m := fun _ => ⟨0, 0⟩)
    (c := .authorize p id .publish) rfl
    (by simp [Hook.work, Session.authPublish, Session.whenConnected, hs, hparse]; rfl)
    (r := .ok ()) (t := (w.states k).session) (x := .ok [⟨⟨id, ""⟩, .publish⟩]) rfl
  refine ⟨v, _, hv, ?_, hothers, by simp [hissued, given, hs]⟩
  rintro q channel action ⟨j, hj⟩
  simp only [List.append_assoc, List.mem_append, List.mem_singleton] at hj
  rcases hj with hj | hj | hj | hj
  · exact hp q channel action ⟨j, hj⟩
  · cases hj
  · cases hj
    rfl
  · cases hj

theorem exists_not_exact {p q : ClientId} (hlends : lends p q) (hne : p ≠ q) (id : ChannelId) :
    ∃ (w₀ w : SharedSessions Bool) (deeds : List (Deed Bool)), w₀.Begins ∧ Run lends w₀ deeds w ∧
      ¬ Exact deeds w := by
  let w₀ : SharedSessions Bool := {
    services := { registrar := { store := ⟨[]⟩ }, policy := ⟨[]⟩ }
    states := fun k =>
      { session := .start (if k then "a" else "b") .mqtt, queue := if k then 0 else 1 } }
  have hdiffer : Function.Injective fun k : Bool => if k then "a" else "b" := by
    intro a b h
    revert h
    cases a <;> cases b <;> decide
  have hbegins : w₀.Begins := {
    fresh := ⟨fun k => if k then "a" else "b", hdiffer, fun k => ⟨.mqtt, rfl⟩⟩
    queues := fun a b h => by
      revert h
      cases a <;> cases b <;> decide
    idle := fun _ => rfl
    issued := rfl
    registrations := rfl }
  have hstart : Run lends w₀ [] w₀ := .start
  obtain ⟨w₁, deeds₁, hr₁, hp₁, hidle₁, hs₁, hothers₁, -, -⟩ :=
    hstart.connects (k := true) rfl rfl p (p := p) (by rintro _ _ _ ⟨_, h⟩; cases h)
  obtain ⟨w₂, deeds₂, hr₂, hp₂, hothers₂, hissued₂⟩ := hr₁.grants hidle₁ hs₁ hp₁ id
  have hstate : w₂.states false = w₀.states false := by
    rw [hothers₂ false (by decide), hothers₁ false (by decide)]
  obtain ⟨w₃, deeds₃, hr₃, hp₃, hidle₃, hs₃, -, hissued₃, -⟩ := hr₂.connects (k := false)
    (by rw [hstate]) (by rw [hstate]) q hp₂
  let g : Grant := ⟨⟨id, ""⟩, .publish⟩
  have hhands : ∀ g' ∈ (Hook.publish g []).grants, ∃ i ∈ w₃.issued, i.grant = g' ∧
      ∀ client, (w₃.states false).session.connected? = some client → lends i.client client := by
    intro g' hg
    rw [List.mem_singleton.1 hg]
    refine ⟨⟨p, g⟩, hissued₃ ▸ hissued₂, rfl, fun client hclient => ?_⟩
    rw [hs₃] at hclient
    cases hclient
    exact hlends
  -- The publish is due, and the policy was never asked for `q`.
  refine ⟨w₀, _, _, hbegins, hr₃.step (.start false (.publish g []) (fun _ => ⟨0, 0⟩) hidle₃ hhands),
    ?_⟩
  intro hexact
  have hasked := hexact.publish false (Topic.subject w₃.services.settings.subjectLead g.channel)
    (.to g.channel q (w₃.states false).session.protocol [] ⟨0, 0⟩) (by
      simp [Asks, setState, Hook.work, Session.publish, Session.whenConnected, hs₃, g,
        Activity.bind])
  obtain ⟨k, hk⟩ := hasked
  rcases List.mem_append.1 hk with hk | hk
  · exact hne (hp₃ q id .publish ⟨k, hk⟩).symm
  · cases List.mem_singleton.1 hk

/-- Leave counts for exactly the client that uses it if, and only if, no grant is lent to another
client. -/
theorem exact_iff_lent_to_same_client (lends : ClientId → ClientId → Prop) :
    (∀ (ι : Type) [DecidableEq ι] (w₀ w : SharedSessions ι) (deeds : List (Deed ι)), w₀.Begins →
      Run lends w₀ deeds w → Exact deeds w) ↔ ∀ p q, lends p q → p = q := by
  constructor
  · intro hexact p q hlends
    by_contra hne
    obtain ⟨w₀, w, deeds, hbegins, hr, hnot⟩ := exists_not_exact hlends hne ⟨"c", by decide⟩
    exact hnot (hexact Bool w₀ w deeds hbegins hr)
  · intro hsame ι _ w₀ w deeds hbegins hr
    exact ((hr.mono hsame).sound hbegins).exact

end DeviceGateway.SharedSessions
