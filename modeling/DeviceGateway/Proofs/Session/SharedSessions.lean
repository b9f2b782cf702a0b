import DeviceGateway.Proofs.Session.Conduct
import DeviceGateway.Proofs.Session.Surroundings
import DeviceGateway.Proofs.Topic.Canonical
import Mathlib.Logic.Function.Basic

/-!
# Sessions that share their services

Any number of sessions run their hooks in any order and at the same time, one hook at a time in
each session. A hook that is handed grants can be handed any that some session was given, if
`lends` lets the client of the one use what the client of the other was given. Hooks may be given
up while a call is under way, and those who are called may answer anything.
-/

namespace DeviceGateway

inductive Hook
  | authConnect (secret : String)
  | connect
  | authPublish (topic : String)
  | publish (g : Grant) (payload : Bytes)
  | authSubscribe (topics : List String)
  | subscribe (gs : List Grant)
  | authUnsubscribe (topics : List String)
  | unsubscribe (gs : List Grant)
  | disconnect

namespace Hook

def grants : Hook → List Grant
  | publish g _ => [g]
  | subscribe gs | unsubscribe gs => gs
  | _ => []

def work (st : Settings) (m : Moments) (queue : QueueId) (s : Session) :
    Hook → Work Session (Session × Except GatewayError (List Grant))
  | authConnect secret => (s.authConnect secret).bind fun x => .done (x.1, x.2.map fun _ => [])
  | connect => (s.connect st (m 0)).bind fun x => .done (x.1, x.2.map fun _ => [])
  | authPublish topic => (s.authPublish topic).bind fun r => .done (s, r.map fun g => [g])
  | publish g payload => (s.publish st (m 0) g payload).bind fun r => .done (s, r.map fun _ => [])
  | authSubscribe topics => (s.authSubscribe topics).bind fun r => .done (s, r)
  | subscribe gs => (s.subscribe st m gs queue).bind fun r => .done (s, r.map fun _ => [])
  | authUnsubscribe topics => (s.authUnsubscribe topics).bind fun r => .done (s, r)
  | unsubscribe gs => (s.unsubscribe st m gs).bind fun r => .done (s, r.map fun _ => [])
  | disconnect => (s.disconnect st (m 0)).bind fun t => .done (t, .ok [])

def Calls (s : Session) (gs : List Grant) (queue : QueueId) (t : Session) (c : Call) : Prop :=
  s.Conduct gs queue t c ∨ s.Farewell t c

theorem owner_of_calls {s t : Session} {gs : List Grant} {queue : QueueId} {c : Call}
    (h : Calls s gs queue t c) : t.owner = s.owner := by
  rcases h with h | h
  · exact h.owner_eq
  · exact h.owner_eq

def Ends (s : Session) (h : Dealings) (x : Session × Except GatewayError (List Grant)) : Prop :=
  x.1.owner = s.owner ∧ ∀ gs, x.2 = .ok gs → ∀ g ∈ gs, s.Given h g

theorem ends_of_nothing {s t : Session} {h : Dealings} {α : Type} (r : Except GatewayError α)
    (ho : t.owner = s.owner) : Ends s h (t, r.map fun _ => []) := by
  refine ⟨ho, fun gs hgs => ?_⟩
  cases r with
  | ok x =>
    cases hgs
    simp
  | error e => cases hgs

theorem obeys_of_conduct {s : Session} {gs : List Grant} {queue : QueueId} {h : Dealings} {α : Type}
    {Q : Dealings → α → Prop} {a : Work Session α}
    {f : α → Session × Except GatewayError (List Grant)}
    (ha : a.Obeys (fun _ => s.Conduct gs queue) Q h) (hQ : ∀ h' x, Q h' x → Ends s h' (f x)) :
    (a.bind fun x => .done (f x)).Obeys (fun _ => Calls s gs queue) (Ends s) h :=
  Activity.obeys_bind.2 (ha.mono (fun _ _ _ _ hc => .inl hc) fun h' _ x hx => hQ h' x hx)

theorem work_obeys (hook : Hook) (st : Settings) (m : Moments) (queue : QueueId) (s : Session)
    (h : Dealings) :
    (hook.work st m queue s).Obeys (fun _ => Calls s hook.grants queue) (Ends s) h := by
  cases hook with
  | authConnect secret =>
    refine obeys_of_conduct (Session.authConnect_obeys secret) fun h' x hx => ends_of_nothing _ ?_
    rcases hx with ⟨-, -, client, -, hx⟩ | ⟨e, -, hx | ⟨-, hx⟩⟩
    · rw [hx]
    · rw [hx]
    · rw [hx]
  | connect =>
    refine obeys_of_conduct Session.connect_obeys fun h' x hx => ends_of_nothing _ ?_
    rcases hx with ⟨-, -, -, hx⟩ | ⟨e, -, hx⟩
    · rw [hx]
    · rw [hx]
  | authPublish topic =>
    refine obeys_of_conduct (Session.authPublish_obeys topic) fun h' r hr => ⟨rfl, ?_⟩
    intro gs hgs g hg
    cases r with
    | ok g' =>
      cases hgs
      rw [List.mem_singleton.1 hg]
      exact (hr g' rfl).2
    | error e => cases hgs
  | publish g payload =>
    have hg : g ∈ (Hook.publish g payload).grants := List.mem_singleton_self g
    exact obeys_of_conduct (Session.publish_obeys hg payload) fun h' r _ => ends_of_nothing r rfl
  | authSubscribe topics =>
    exact obeys_of_conduct (Session.authSubscribe_obeys topics) fun h' r hr =>
      ⟨rfl, fun gs hgs g hg => (hr gs hgs g hg).2⟩
  | subscribe gs =>
    exact obeys_of_conduct Session.subscribe_obeys fun h' r _ => ends_of_nothing r rfl
  | authUnsubscribe topics =>
    exact obeys_of_conduct (Session.authUnsubscribe_obeys topics) fun h' r hr =>
      ⟨rfl, fun gs hgs g hg => (hr gs hgs g hg).2⟩
  | unsubscribe gs =>
    exact obeys_of_conduct Session.unsubscribe_obeys fun h' r _ => ends_of_nothing r rfl
  | disconnect =>
    refine Activity.obeys_bind.2 (Session.disconnect_obeys.mono (fun _ _ _ _ hc => .inr hc) ?_)
    rintro h' - t ⟨ho, -⟩
    exact ends_of_nothing (.ok ()) ho

end Hook

/-- What sessions and services see of the rest of the gateway: the bus in use, the queues read or
closed, and deliveries that are passed on. -/
inductive Services.Outside (s : Services) : Services → Prop
  | bus {b : Bus} (hb : Bus.Uses s.bus b) : Outside s { s with bus := b }
  | queues (qs : Queues) : Outside s { s with queues := qs }
  | forward (d : Delivery) : Outside s (s.forward d)

structure Issued where
  client : ClientId
  grant : Grant

structure Doing where
  hook : Hook
  heard : Dealings
  work : Work Session (Session × Except GatewayError (List Grant))

structure SessionState where
  session : Session
  queue : QueueId
  doing : Option Doing := none

structure SharedSessions (ι : Type) where
  services : Services
  states : ι → SessionState
  issued : List Issued := []

inductive Deed (ι : Type)
  | start (k : ι) (hook : Hook)
  | hear (k : ι) (c : Call) (r : c.Reply)
  | finish (k : ι)
  | giveUp (k : ι)
  | elsewhere

namespace SharedSessions
variable {ι : Type}

structure Begins (w : SharedSessions ι) : Prop where
  fresh : ∃ name : ι → String, name.Injective ∧ ∀ k, ∃ protocol,
    (w.states k).session = .start (name k) protocol
  queues : (fun k => (w.states k).queue).Injective
  idle : ∀ k, (w.states k).doing = none
  issued : w.issued = []
  registrations : w.services.broker.registrations = []

def setState [DecidableEq ι] (w : SharedSessions ι) (k : ι) (state : SessionState) :
    SharedSessions ι :=
  { w with states := Function.update w.states k state }

def given (s : Session) (r : Except GatewayError (List Grant)) : List Issued :=
  match s.connected?, r with
  | some client, .ok gs => gs.map fun g => ⟨client, g⟩
  | _, _ => []

inductive Step [DecidableEq ι] (lends : ClientId → ClientId → Prop) (w : SharedSessions ι) :
    Deed ι → SharedSessions ι → Prop
  | start (k : ι) (hook : Hook) (m : Moments) (hidle : (w.states k).doing = none)
      (hhands : ∀ g ∈ hook.grants, ∃ i ∈ w.issued, i.grant = g ∧
        ∀ client, (w.states k).session.connected? = some client → lends i.client client) :
      Step lends w (.start k hook) (w.setState k { w.states k with
        doing := some ⟨hook, [],
          hook.work w.services.settings m (w.states k).queue (w.states k).session⟩ })
  | hear (k : ι) {d : Doing} (hd : (w.states k).doing = some d) {s : Session} {c : Call}
      {f : c.Reply → Work Session (Session × Except GatewayError (List Grant))}
      (hw : d.work = .call s c f) {r : c.Reply} {t : Services} (ht : w.services.Answers c r t) :
      Step lends w (.hear k c r) { w.setState k { w.states k with
        doing := some { d with heard := d.heard ++ [⟨c, r⟩], work := f r } } with services := t }
  | finish (k : ι) {d : Doing} (hd : (w.states k).doing = some d) {s : Session}
      {r : Except GatewayError (List Grant)} (hw : d.work = .done (s, r)) :
      Step lends w (.finish k) { w.setState k { w.states k with session := s, doing := none } with
        issued := w.issued ++ given (w.states k).session r }
  | giveUp (k : ι) {d : Doing} (hd : (w.states k).doing = some d) {s : Session} {c : Call}
      {f : c.Reply → Work Session (Session × Except GatewayError (List Grant))}
      (hw : d.work = .call s c f) :
      Step lends w (.giveUp k) (w.setState k { w.states k with session := s, doing := none })
  | elsewhere {t : Services} (ht : w.services.Outside t) :
      Step lends w .elsewhere { w with services := t }

inductive Run [DecidableEq ι] (lends : ClientId → ClientId → Prop) (w : SharedSessions ι) :
    List (Deed ι) → SharedSessions ι → Prop
  | start : Run lends w [] w
  | step {deeds : List (Deed ι)} {v u : SharedSessions ι} {deed : Deed ι} (hr : Run lends w deeds v)
      (hs : Step lends v deed u) : Run lends w (deeds ++ [deed]) u

/-- A session allowed itself this at some time: the policy was asked and allowed it. -/
def Permitted (deeds : List (Deed ι)) (client : ClientId) (channel : ChannelId) (action : Action) :
    Prop :=
  ∃ k, Deed.hear k (.authorize client channel action) (.ok ()) ∈ deeds

theorem Permitted.mono {deeds more : List (Deed ι)} {client : ClientId} {channel : ChannelId}
    {action : Action} (hp : Permitted deeds client channel action) (hsub : deeds ⊆ more) :
    Permitted more client channel action := by
  obtain ⟨k, hk⟩ := hp
  exact ⟨k, hsub hk⟩

theorem states_setState [DecidableEq ι] (w : SharedSessions ι) (k j : ι) (state : SessionState) :
    (w.setState k state).states j = if j = k then state else w.states j := by
  simp only [setState, Function.update_apply]

end SharedSessions

structure Doing.Sound {ι : Type} (lends : ClientId → ClientId → Prop) (issued : List Issued)
    (deeds : List (Deed ι)) (k : ι) (s : Session) (queue : QueueId) (d : Doing) : Prop where
  obeys : d.work.Obeys (fun _ => Hook.Calls s d.hook.grants queue) (Hook.Ends s) d.heard
  heard : ∀ x ∈ d.heard, Deed.hear k x.1 x.2 ∈ deeds
  handed : ∀ g ∈ d.hook.grants, ∃ i ∈ issued, i.grant = g ∧
    ∀ client, s.connected? = some client → lends i.client client

structure SessionState.Sound {ι : Type} (lends : ClientId → ClientId → Prop) (issued : List Issued)
    (deeds : List (Deed ι)) (k : ι) (state was : SessionState) : Prop where
  owner : state.session.owner = was.session.owner
  queue : state.queue = was.queue
  doing : ∀ d, state.doing = some d →
    d.Sound lends issued deeds k state.session state.queue

def SessionState.Registers (state : SessionState) (r : Registration) : Prop :=
  r.owner = state.session.owner ∧ r.queue = state.queue ∧ r.token = r.filter ∧
    ∃ c, r.filter = Topic.edgeFilter c ∧ Topic.parseFilter r.filter = .ok c

namespace SharedSessions
variable {ι : Type} {lends : ClientId → ClientId → Prop} {issued more : List Issued}
variable {deeds deeds' : List (Deed ι)} {w₀ w v : SharedSessions ι} {deed : Deed ι} {k : ι}

theorem doing_mono {s : Session} {queue : QueueId} {d : Doing}
    (h : d.Sound lends issued deeds k s queue) (hi : issued ⊆ more) (hd : deeds ⊆ deeds') :
    d.Sound lends more deeds' k s queue where
  obeys := h.obeys
  heard := fun x hx => hd (h.heard x hx)
  handed := fun g hg => by
    obtain ⟨i, hmem, hig⟩ := h.handed g hg
    exact ⟨i, hi hmem, hig⟩

theorem state_mono {was state : SessionState} (h : state.Sound lends issued deeds k was)
    (hi : issued ⊆ more)
    (hd : deeds ⊆ deeds') : state.Sound lends more deeds' k was :=
  ⟨h.owner, h.queue, fun d hdoing => doing_mono (h.doing d hdoing) hi hd⟩

structure Sound (lends : ClientId → ClientId → Prop) (w₀ : SharedSessions ι) (deeds : List (Deed ι))
    (w : SharedSessions ι) : Prop where
  states : ∀ k, (w.states k).Sound lends w.issued deeds k (w₀.states k)
  issued : ∀ i ∈ w.issued, i.grant.Readable ∧
    Permitted deeds i.client i.grant.channel.id i.grant.action
  registered : ∀ r ∈ w.services.broker.registrations, ∃ k, (w₀.states k).Registers r
  keyed : w.services.broker.Keyed

theorem Begins.sound (h : w₀.Begins) : Sound lends w₀ [] w₀ where
  states := fun k => ⟨rfl, rfl, by simp [h.idle k]⟩
  issued := by simp [h.issued]
  registered := by simp [h.registrations]
  keyed := by simp [Broker.Keyed, h.registrations]

theorem mem_given {s : Session} {r : Except GatewayError (List Grant)} {i : Issued}
    (h : i ∈ given s r) : s.connected? = some i.client ∧ ∃ gs, r = .ok gs ∧ i.grant ∈ gs := by
  simp only [given] at h
  split at h
  · rename_i client gs hs
    obtain ⟨g, hg, rfl⟩ := List.mem_map.1 h
    exact ⟨hs, gs, rfl, hg⟩
  · cases h

theorem allowed_of_given {s t : Session} {queue : QueueId} {d : Doing}
    (h : d.Sound lends issued deeds k s queue) {r : Except GatewayError (List Grant)}
    (hw : d.work = .done (t, r)) {i : Issued} (hi : i ∈ given s r) :
    i.grant.Readable ∧ Permitted deeds i.client i.grant.channel.id i.grant.action := by
  have hends : Hook.Ends s d.heard (t, r) := by
    have hobeys := h.obeys
    rwa [hw] at hobeys
  obtain ⟨hs, gs, rfl, hg⟩ := mem_given hi
  obtain ⟨hread, client, hclient, hallowed⟩ := hends.2 gs rfl i.grant hg
  have heq : client = i.client := Option.some.inj (hclient.symm.trans hs)
  subst heq
  exact ⟨hread, k, h.heard _ hallowed⟩

theorem entries_of_register {s t : Session} {queue : QueueId} {d : Doing}
    (h : d.Sound lends issued deeds k s queue)
    {owner : String} {entries : List (String × String)} {q : QueueId}
    {f : Unit → Work Session (Session × Except GatewayError (List Grant))}
    (hw : d.work = .call t (.register owner entries q) f) :
    owner = s.owner ∧ q = queue ∧ ∃ client, s.connected? = some client ∧
      ∀ e ∈ entries, ∃ i ∈ issued, i.grant.action = .subscribe ∧ lends i.client client ∧
        e = (Topic.edgeFilter i.grant.channel, Topic.edgeFilter i.grant.channel) := by
  have hobeys := h.obeys
  rw [hw] at hobeys
  rcases hobeys.1 with hc | hc
  · cases hc with
    | register hs ha =>
      refine ⟨rfl, rfl, _, hs, fun e he => ?_⟩
      obtain ⟨g, hg, rfl⟩ := List.mem_map.1 he
      obtain ⟨i, hi, rfl, hlends⟩ := h.handed g hg
      exact ⟨i, hi, ha _ hg, hlends _ hs, rfl⟩
  · cases hc

theorem parseFilter_of_readable {g : Grant} (hr : g.Readable) (ha : g.action = .subscribe) :
    Topic.parseFilter (Topic.edgeFilter g.channel) = .ok g.channel := by
  rw [Grant.Readable, if_neg (by simp [ha])] at hr
  obtain ⟨topic, htopic⟩ := hr
  obtain ⟨ts, hts, hc⟩ := Topic.parseFilter_ok htopic
  exact Topic.parseFilter_edgeFilter hts hc

variable [DecidableEq ι]

theorem Sound.step (h : Sound lends w₀ deeds w) (hs : Step lends w deed v) :
    Sound lends w₀ (deeds ++ [deed]) v := by
  have hgrow : deeds ⊆ deeds ++ [deed] := List.subset_append_left _ _
  have hold : ∀ j, (w.states j).Sound lends w.issued (deeds ++ [deed]) j (w₀.states j) :=
    fun j => state_mono (h.states j) (List.Subset.refl _) hgrow
  have hissued : ∀ i ∈ w.issued, i.grant.Readable ∧
      Permitted (deeds ++ [deed]) i.client i.grant.channel.id i.grant.action := fun i hi =>
    ⟨(h.issued i hi).1, (h.issued i hi).2.mono hgrow⟩
  cases hs with
  | start k hook m hidle hhands =>
    refine ⟨fun j => ?_, hissued, h.registered, h.keyed⟩
    rw [states_setState]
    split
    · rename_i hj
      subst hj
      refine ⟨(hold j).owner, (hold j).queue, fun d hd => ?_⟩
      cases hd
      exact ⟨hook.work_obeys _ m _ _ [], by simp, hhands⟩
    · exact hold j
  | @hear k d hd s c f hw r t ht =>
    have hdoing := (hold k).doing d hd
    refine ⟨fun j => ?_, hissued, fun x hx => ?_, ht.keyed h.keyed⟩
    · rw [states_setState]
      split
      · rename_i hj
        subst hj
        refine ⟨(hold j).owner, (hold j).queue, fun d' hd' => ?_⟩
        cases hd'
        have hobeys := hdoing.obeys
        rw [hw] at hobeys
        refine ⟨hobeys.2 r, fun x hx => ?_, hdoing.handed⟩
        rcases List.mem_append.1 hx with hx | hx
        · exact hdoing.heard x hx
        · rw [List.mem_singleton.1 hx]
          exact List.mem_append_right _ (List.mem_singleton_self _)
      · exact hold j
    · rcases ht.mem_registrations hx with hx | ⟨owner, entries, queue, rfl, e, he, rfl⟩
      · exact h.registered x hx
      · obtain ⟨rfl, rfl, client, -, hentries⟩ := entries_of_register hdoing hw
        obtain ⟨i, hi, ha, -, rfl⟩ := hentries e he
        exact ⟨k, (hold k).owner, (hold k).queue, rfl, i.grant.channel, rfl,
          parseFilter_of_readable (hissued i hi).1 ha⟩
  | @finish k d hd s r hw =>
    have hdoing := (hold k).doing d hd
    have hends : Hook.Ends (w.states k).session d.heard (s, r) := by
      have hobeys := hdoing.obeys
      rwa [hw] at hobeys
    refine ⟨fun j => ?_, fun i hi => ?_, h.registered, h.keyed⟩
    · have hmore : w.issued ⊆ w.issued ++ SharedSessions.given (w.states k).session r :=
        List.subset_append_left _ _
      refine state_mono ?_ hmore (List.Subset.refl _)
      rw [states_setState]
      split
      · rename_i hj
        subst hj
        exact ⟨hends.1.trans (hold j).owner, (hold j).queue, nofun⟩
      · exact hold j
    · rcases List.mem_append.1 hi with hi | hi
      · exact hissued i hi
      · exact allowed_of_given hdoing hw hi
  | @giveUp k d hd s c f hw =>
    have hobeys := ((hold k).doing d hd).obeys
    rw [hw] at hobeys
    refine ⟨fun j => ?_, hissued, h.registered, h.keyed⟩
    rw [states_setState]
    split
    · rename_i hj
      subst hj
      exact ⟨(Hook.owner_of_calls hobeys.1).trans (hold j).owner, (hold j).queue, nofun⟩
    · exact hold j
  | elsewhere ht =>
    cases ht with
    | bus | queues => exact ⟨hold, hissued, h.registered, h.keyed⟩
    | forward d =>
      exact ⟨hold, hissued, fun x hx => h.registered x (Broker.mem_of_mem_prune hx),
        h.keyed.filter _⟩

theorem Run.sound (h : w₀.Begins) (hr : Run lends w₀ deeds w) : Sound lends w₀ deeds w := by
  induction hr with
  | start => exact h.sound
  | step _ hs ih => exact ih.step hs

end SharedSessions

end DeviceGateway
