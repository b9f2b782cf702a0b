import DeviceGateway.Proofs.Activity.Obeys
import DeviceGateway.Session.Basic

/-!
# What the hooks of a session may call

`Session.Conduct` lists every call that a hook of a session makes and the state that the session
shows meanwhile; what disconnecting calls is in `Session.Farewell`. Each hook keeps to it under
every reply of those it calls, and the grants that a hook returns were allowed by the policy, for
the client of that session, while the hook ran.
-/

namespace DeviceGateway
open Activity (obeys_done obeys_call obeys_bind obeys_andThen)

abbrev Dealings := History Call Call.Reply

def Allowed (h : Dealings) (client : ClientId) (channel : ChannelId) (action : Action) : Prop :=
  (⟨.authorize client channel action, .ok ()⟩ : Σ c : Call, c.Reply) ∈ h

theorem Allowed.mono {h h' : Dealings} {client : ClientId} {channel : ChannelId} {action : Action}
    (ha : Allowed h client channel action) (hh : h <+: h') : Allowed h' client channel action :=
  hh.subset ha

def Grant.Readable (g : Grant) : Prop :=
  if g.action = .publish then ∃ topic, Topic.parse topic = .ok g.channel
  else ∃ topic, Topic.parseFilter topic = .ok g.channel

namespace Session

/-- The session `s`, with the grants and the queue that a hook is handed, shows the second state
while it makes a call. -/
inductive Conduct (s : Session) (gs : List Grant) (queue : QueueId) : Session → Call → Prop
  | identify {secret : String} (hs : s.phase = .fresh) (hne : secret ≠ "") :
      Conduct s gs queue { s with secret := secret } (.identify secret)
  | authorize {client : ClientId} (hs : s.connected? = some client) (channel : ChannelId)
      (action : Action) : Conduct s gs queue s (.authorize client channel action)
  | publish {client : ClientId} (hs : s.connected? = some client) {g : Grant} (hg : g ∈ gs)
      (ha : g.action = .publish) (lead : String) (payload : Bytes) (m : Moment) :
      Conduct s gs queue s
        (.publish (Topic.subject lead g.channel) (.to g.channel client s.protocol payload m))
  | recordStart {client : ClientId} (hs : s.phase = .connecting) (hc : s.client = some client)
      (st : Settings) (m : Moment) :
      Conduct s gs queue { s with phase := .connected, connectedAt := some m }
        (.record (.ofSession .connect client s.protocol st.instanceName m))
  | recordChange {client : ClientId} (hs : s.connected? = some client) {g : Grant} (hg : g ∈ gs)
      {operation : Operation} (ho : operation = .subscribe ∨ operation = .unsubscribe)
      (st : Settings) (m : Moment) :
      Conduct s gs queue s (.record (s.event st m client operation g))
  | register {client : ClientId} (hs : s.connected? = some client)
      (ha : ∀ g ∈ gs, g.action = .subscribe) :
      Conduct s gs queue s (.register s.owner
        (gs.map fun g => (Topic.edgeFilter g.channel, Topic.edgeFilter g.channel)) queue)
  | deregister {client : ClientId} (hs : s.connected? = some client) (token : String) :
      Conduct s gs queue s (.deregister s.owner token)

inductive Farewell (s : Session) : Session → Call → Prop
  | deregisterOwner (hs : s.phase = .connected) :
      Farewell s { s with phase := .disconnected } (.deregisterOwner s.owner)
  | record {client : ClientId} (hs : s.connected? = some client) (st : Settings) (m : Moment) :
      Farewell s { s with phase := .disconnected }
        (.record (.ofSession .disconnect client s.protocol st.instanceName m))

theorem Conduct.owner_eq {s t : Session} {gs : List Grant} {queue : QueueId} {c : Call}
    (h : s.Conduct gs queue t c) : t.owner = s.owner := by
  cases h <;> rfl

theorem Farewell.owner_eq {s t : Session} {c : Call} (h : s.Farewell t c) : t.owner = s.owner := by
  cases h <;> rfl

theorem Conduct.eq_of_connected {s t : Session} {gs : List Grant} {queue : QueueId} {c : Call}
    (h : s.Conduct gs queue t c) (hs : s.phase = .connected) : t = s := by
  cases h with
  | identify hfresh => simp [hs] at hfresh
  | recordStart hconnecting => simp [hs] at hconnecting
  | _ => rfl

/-- While the session was connected, the policy allowed its client what the grant is for. -/
def Given (s : Session) (h : Dealings) (g : Grant) : Prop :=
  g.Readable ∧ ∃ client, s.connected? = some client ∧ Allowed h client g.channel.id g.action

theorem Given.mono {s : Session} {h h' : Dealings} {g : Grant} (hg : s.Given h g) (hh : h <+: h') :
    s.Given h' g := by
  obtain ⟨hr, client, hc, ha⟩ := hg
  exact ⟨hr, client, hc, ha.mono hh⟩

variable {s : Session} {gs : List Grant} {queue : QueueId} {st : Settings} {m : Moment}
variable {ms : Moments} {h : Dealings}

theorem connected?_eq_some_iff {client : ClientId} :
    s.connected? = some client ↔ s.phase = .connected ∧ s.client = some client := by
  simp [connected?]

theorem obeys_whenConnected {α : Type} {P : Dealings → Session → Call → Prop}
    {Q : Dealings → Except GatewayError α → Prop} {f : ClientId → Attempt Session α}
    (hn : Q h (.error .notConnected))
    (hf : ∀ client, s.connected? = some client → (f client).Obeys P Q h) :
    (s.whenConnected f).Obeys P Q h := by
  simp only [whenConnected]
  split
  · rename_i client hs
    exact hf client hs
  · exact hn

theorem authConnect_obeys (secret : String) :
    (s.authConnect secret).Obeys (fun _ => s.Conduct gs queue)
      (fun h' x =>
        (x.2 = .ok () ∧ s.phase = .fresh ∧ ∃ client,
          (⟨.identify secret, .ok client⟩ : Σ c : Call, c.Reply) ∈ h' ∧
          x.1 = { s with secret := secret, phase := .connecting, client := some client }) ∨
        ∃ e, x.2 = .error e ∧ (x.1 = s ∨
          s.phase = .fresh ∧ x.1 = { s with secret := secret, phase := .rejected })) h := by
  simp only [authConnect]
  split
  · exact .inr ⟨_, rfl, .inl rfl⟩
  · rename_i hphase
    have hfresh : s.phase = .fresh := Decidable.not_not.1 hphase
    split
    · exact .inr ⟨_, rfl, .inr ⟨hfresh, rfl⟩⟩
    · rename_i hne
      refine ⟨.identify hfresh hne, fun r => ?_⟩
      cases r with
      | ok client => exact .inl ⟨rfl, hfresh, client, by simp, rfl⟩
      | error e => exact .inr ⟨_, rfl, .inr ⟨hfresh, rfl⟩⟩

theorem connect_obeys :
    (s.connect st m).Obeys (fun _ => s.Conduct gs queue)
      (fun _ x =>
        (x.2 = .ok () ∧ s.phase = .connecting ∧ s.client.isSome ∧
          x.1 = { s with phase := .connected, connectedAt := some m }) ∨
        ∃ e, x.2 = .error e ∧ x.1 = s) h := by
  simp only [connect]
  split
  · rename_i client hs hc
    exact ⟨.recordStart hs hc st m, fun _ => .inl ⟨rfl, hs, by simp [hc], rfl⟩⟩
  · exact .inr ⟨_, rfl, rfl⟩

theorem requestGrant_obeys {client : ClientId} (hs : s.connected? = some client) (c : Channel)
    (action : Action) :
    (requestGrant s client c action).Obeys (fun _ => s.Conduct gs queue)
      (fun h' r => ∀ g, r = .ok g → g = ⟨c, action⟩ ∧ Allowed h' client c.id action) h := by
  refine ⟨.authorize hs c.id action, fun r => ?_⟩
  cases r with
  | ok u =>
    refine fun g hg => ⟨(Except.ok.inj hg).symm, ?_⟩
    exact List.mem_append_right h (List.mem_singleton_self _)
  | error e => exact nofun

theorem authPublish_obeys (topic : String) :
    (s.authPublish topic).Obeys (fun _ => s.Conduct gs queue)
      (fun h' r => ∀ g, r = .ok g → g.action = .publish ∧ s.Given h' g) h := by
  refine obeys_whenConnected nofun fun client hs => ?_
  split
  · exact nofun
  · rename_i c hc
    refine (requestGrant_obeys hs c .publish).imp fun h' _ r hr g hg => ?_
    obtain ⟨rfl, ha⟩ := hr g hg
    exact ⟨rfl, ⟨topic, hc⟩, client, hs, ha⟩

theorem requestFilters_obeys {client : ClientId} (hs : s.connected? = some client) {action : Action}
    (hact : action ≠ .publish) (topics : List String) :
    (requestFilters s client action topics).Obeys (fun _ => s.Conduct gs queue)
      (fun h' r => ∀ given, r = .ok given → ∀ g ∈ given, g.action = action ∧ s.Given h' g) h := by
  induction topics generalizing h with
  | nil =>
    intro given hgiven
    cases hgiven
    simp
  | cons topic rest ih =>
    simp only [requestFilters]
    split
    · exact nofun
    · rename_i c hc
      refine obeys_andThen.2 ((requestGrant_obeys hs c action).imp ?_)
      rintro h₁ - (e | g) hg
      · exact nofun
      · obtain ⟨rfl, ha⟩ := hg g rfl
        refine obeys_andThen.2 (ih.imp ?_)
        rintro h₂ hh (e | given) hrest
        · exact nofun
        · intro all hall g hg
          cases hall
          rcases List.mem_cons.1 hg with rfl | hg
          · exact ⟨rfl, by simpa [Grant.Readable, hact] using ⟨topic, hc⟩, client, hs, ha.mono hh⟩
          · exact hrest given rfl g hg

theorem authSubscribe_obeys (topics : List String) :
    (s.authSubscribe topics).Obeys (fun _ => s.Conduct gs queue)
      (fun h' r => ∀ given, r = .ok given → ∀ g ∈ given, g.action = .subscribe ∧ s.Given h' g) h :=
  obeys_whenConnected nofun fun _ hs => requestFilters_obeys hs (by decide) topics

theorem authUnsubscribe_obeys (topics : List String) :
    (s.authUnsubscribe topics).Obeys (fun _ => s.Conduct gs queue)
      (fun h' r => ∀ given, r = .ok given → ∀ g ∈ given, g.action = .unsubscribe ∧ s.Given h' g) h :=
  obeys_whenConnected nofun fun _ hs => requestFilters_obeys hs (by decide) topics

theorem publish_obeys {g : Grant} (hg : g ∈ gs) (payload : Bytes) :
    (s.publish st m g payload).Obeys (fun _ => s.Conduct gs queue) (fun _ _ => True) h := by
  refine obeys_whenConnected trivial fun client hs => ?_
  split
  · trivial
  · rename_i haction
    have ha : g.action = .publish := Decidable.not_not.1 haction
    refine ⟨.publish hs hg ha _ _ _, fun r => ?_⟩
    cases r <;> trivial

theorem misuse?_eq_none_iff {action : Action} :
    misuse? action gs = none ↔ ∀ g ∈ gs, g.action = action := by
  simp [misuse?]

theorem emitEach_obeys {events : List Event}
    (he : ∀ e ∈ events, s.Conduct gs queue s (.record e)) :
    (emitEach s events).Obeys (fun _ => s.Conduct gs queue) (fun _ _ => True) h := by
  induction events generalizing h with
  | nil => trivial
  | cons e rest ih =>
    obtain ⟨he, hrest⟩ := List.forall_mem_cons.1 he
    exact ⟨he, fun _ => ih hrest⟩

theorem subscribe_obeys :
    (s.subscribe st ms gs queue).Obeys (fun _ => s.Conduct gs queue) (fun _ _ => True) h := by
  refine obeys_whenConnected trivial fun client hs => ?_
  split
  · trivial
  · rename_i hnone
    have ha := misuse?_eq_none_iff.1 hnone
    refine ⟨by simpa [Function.comp_def] using Conduct.register hs ha, fun _ => obeys_bind.2 ?_⟩
    refine emitEach_obeys fun e he => ?_
    obtain ⟨i, hi, rfl⟩ := List.mem_mapIdx.1 he
    exact .recordChange hs (List.getElem_mem hi) (.inl rfl) st (ms i)

theorem deregisterEach_obeys {client : ClientId} (hs : s.connected? = some client)
    {used : List Grant} (hsub : ∀ g ∈ used, g ∈ gs) :
    (deregisterEach st ms s client used).Obeys (fun _ => s.Conduct gs queue) (fun _ _ => True) h := by
  induction used generalizing h ms with
  | nil => trivial
  | cons g rest ih =>
    obtain ⟨hg, hrest⟩ := List.forall_mem_cons.1 hsub
    refine ⟨.deregister hs _, fun removed => ?_⟩
    cases removed with
    | false => exact ih hrest
    | true => exact ⟨.recordChange hs hg (.inr rfl) st (ms 0), fun _ => ih hrest⟩

theorem unsubscribe_obeys :
    (s.unsubscribe st ms gs).Obeys (fun _ => s.Conduct gs queue) (fun _ _ => True) h := by
  refine obeys_whenConnected trivial fun client hs => ?_
  split
  · trivial
  · exact obeys_bind.2 (deregisterEach_obeys hs fun _ hg => hg)

theorem disconnect_obeys :
    (s.disconnect st m).Obeys (fun _ => s.Farewell)
      (fun _ t => t.owner = s.owner ∧ t.client = s.client) h := by
  simp only [disconnect]
  split
  · exact ⟨rfl, rfl⟩
  · exact ⟨rfl, rfl⟩
  · exact ⟨rfl, rfl⟩
  · exact ⟨rfl, rfl⟩
  · rename_i hs
    refine ⟨.deregisterOwner hs, fun _ => ?_⟩
    split
    · exact ⟨rfl, rfl⟩
    · rename_i client hc
      exact ⟨.record (connected?_eq_some_iff.2 ⟨hs, hc⟩) st m, fun _ => ⟨rfl, rfl⟩⟩

end Session

end DeviceGateway
