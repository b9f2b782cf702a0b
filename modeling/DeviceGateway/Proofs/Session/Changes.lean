import DeviceGateway.Observe
import DeviceGateway.Proofs.Bus.LastWord
import DeviceGateway.Proofs.Session.SharedSessions
import DeviceGateway.Proofs.Session.Serving

/-!
# What is changed at the broker

A hook or an observation that succeeds has asked the broker for exactly the changes that it is for,
and one that fails has asked for none. A session that is not connected any more has given up all
that it had registered.
-/

namespace DeviceGateway
open Activity (obeys_bind obeys_andThen)

def changesIn (h : Dealings) : List Call := h.calls.filter fun c => !c.isAwaited

theorem changesIn_concat (h : Dealings) (c : Call) (r : c.Reply) :
    changesIn (h ++ [⟨c, r⟩]) = changesIn h ++ if c.isAwaited then [] else [c] := by
  rw [changesIn, Dealings.calls, List.map_append, List.filter_append]
  cases hc : c.isAwaited <;> simp [changesIn, hc]

theorem obeys_quiet {σ α : Type} {P : σ → Prop} {Q : Dealings → α → Prop} {h : Dealings}
    {a : Work σ α} (ha : a.Obeys (fun _ t c => P t ∧ c.isAwaited = true) Q h) :
    a.Obeys (fun h' t c => (P t ∧ c.isAwaited = true) ∧ changesIn h' = changesIn h)
      (fun h' x => Q h' x ∧ changesIn h' = changesIn h) h := by
  refine ha.keep rfl fun h' _ c r hc hI => ?_
  rw [changesIn_concat, hc.2, hI]
  simp

def Session.change (s : Session) (g : Grant) : Call :=
  .deregister s.owner (Topic.edgeFilter g.channel)

/-- What a hook asks of the broker when it succeeds on the session `s`. -/
def Hook.changes (s : Session) (queue : QueueId) : Hook → List Call
  | subscribe gs => [.register s.owner
      (gs.map fun g => (Topic.edgeFilter g.channel, Topic.edgeFilter g.channel)) queue]
  | unsubscribe gs => gs.map s.change
  | disconnect => if s.phase = .connected then [.deregisterOwner s.owner] else []
  | _ => []

structure Session.Clears (s t : Session) (cs : List Call) : Prop where
  owner : t.owner = s.owner
  parted : t.phase ≠ .connected →
    s.phase ≠ .connected ∧ cs = [] ∨ cs = [.deregisterOwner s.owner]

structure Hook.Heeds (s : Session) (queue : QueueId) (hook : Hook) (h : Dealings) (t : Session)
    (c : Call) : Prop where
  next : c.isAwaited = false → changesIn h ++ [c] <+: hook.changes s queue
  left : c.isAwaited = true → s.Clears t (changesIn h)

structure Hook.Achieves (s : Session) (queue : QueueId) (hook : Hook) (h : Dealings)
    (y : Session × Except GatewayError (List Grant)) : Prop where
  ok : ∀ gs, y.2 = .ok gs → changesIn h = hook.changes s queue
  error : ∀ e, y.2 = .error e → changesIn h = []
  left : s.Clears y.1 (changesIn h)

namespace Session
variable {s : Session} {client : ClientId} {st : Settings} {m : Moments} {queue : QueueId}
variable {h : Dealings}

theorem clears_self (s : Session) : s.Clears s [] := ⟨rfl, fun hs => .inl ⟨hs, rfl⟩⟩

theorem clears_of_connected {t : Session} (ho : t.owner = s.owner) (ht : t.phase = .connected)
    (cs : List Call) : s.Clears t cs := ⟨ho, fun hn => absurd ht hn⟩

theorem clears_of_fresh {t : Session} (ho : t.owner = s.owner) (hs : s.phase ≠ .connected) :
    s.Clears t [] := ⟨ho, fun _ => .inl ⟨hs, rfl⟩⟩

theorem requestGrant_quiet (c : Channel) (action : Action) :
    (requestGrant s client c action).Obeys (fun _ t c => t = s ∧ c.isAwaited = true)
      (fun _ _ => True) h := by
  refine ⟨⟨rfl, rfl⟩, fun r => ?_⟩
  cases r <;> trivial

theorem requestFilters_quiet (action : Action) (topics : List String) :
    (requestFilters s client action topics).Obeys (fun _ t c => t = s ∧ c.isAwaited = true)
      (fun _ _ => True) h := by
  induction topics generalizing h with
  | nil => trivial
  | cons topic rest ih =>
    simp only [requestFilters]
    split
    · trivial
    · refine obeys_andThen.2 ((requestGrant_quiet _ action).imp fun _ _ r _ => ?_)
      cases r with
      | error e => trivial
      | ok g =>
        refine obeys_andThen.2 (ih.imp fun _ _ r _ => ?_)
        cases r <;> trivial

theorem authPublish_quiet (topic : String) :
    (s.authPublish topic).Obeys (fun _ t c => t = s ∧ c.isAwaited = true) (fun _ _ => True) h := by
  refine obeys_whenConnected trivial fun client _ => ?_
  split
  · trivial
  · exact requestGrant_quiet _ _

theorem publish_quiet (g : Grant) (payload : Bytes) :
    (s.publish st (m 0) g payload).Obeys (fun _ t c => t = s ∧ c.isAwaited = true)
      (fun _ _ => True) h := by
  refine obeys_whenConnected trivial fun client _ => ?_
  split
  · trivial
  · refine ⟨⟨rfl, rfl⟩, fun r => ?_⟩
    cases r <;> trivial

theorem emitEach_quiet (events : List Event) :
    (emitEach s events).Obeys (fun _ t c => t = s ∧ c.isAwaited = true) (fun _ _ => True) h := by
  induction events generalizing h with
  | nil => trivial
  | cons e rest ih => exact ⟨⟨rfl, rfl⟩, fun _ => ih⟩

theorem deregisterEach_changes (st : Settings) (m : Moments) (client : ClientId)
    (gone rest : List Grant) (hh : changesIn h = gone.map s.change) :
    (deregisterEach st m s client rest).Obeys
      (fun h' t c => t = s ∧
        (c.isAwaited = false → changesIn h' ++ [c] <+: (gone ++ rest).map s.change))
      (fun h' _ => changesIn h' = (gone ++ rest).map s.change) h := by
  induction rest generalizing gone h m with
  | nil => simpa [deregisterEach, Activity.obeys_done] using hh
  | cons g rest ih =>
    have hsplit : gone ++ g :: rest = (gone ++ [g]) ++ rest := by simp
    have hnext : ∀ removed : Bool,
        changesIn (h ++ [⟨.deregister s.owner (Topic.edgeFilter g.channel), removed⟩]) =
          (gone ++ [g]).map s.change := by
      intro removed
      rw [changesIn_concat, hh, List.map_append]
      rfl
    rw [hsplit]
    refine ⟨⟨rfl, fun _ => ?_⟩, fun removed => ?_⟩
    · rw [hh, List.map_append, List.map_append]
      exact List.prefix_append _ _
    · cases removed with
      | false => exact ih _ _ (hnext false)
      | true =>
        refine ⟨⟨rfl, by simp [Call.isAwaited]⟩, fun r => ih _ _ ?_⟩
        rw [changesIn_concat, hnext true]
        exact List.append_nil _

end Session

namespace Hook
variable {s : Session} {client : ClientId} {st : Settings} {m : Moments} {queue : QueueId}
variable {hook : Hook}

theorem Heeds.of_isAwaited {h : Dealings} {t : Session} {c : Call} (hc : c.isAwaited = true)
    (hl : s.Clears t (changesIn h)) : hook.Heeds s queue h t c :=
  ⟨fun hn => by simp [hc] at hn, fun _ => hl⟩

theorem Heeds.of_change {h : Dealings} {t : Session} {c : Call} (hc : c.isAwaited = false)
    (hnext : changesIn h ++ [c] <+: hook.changes s queue) : hook.Heeds s queue h t c :=
  ⟨fun _ => hnext, fun hn => by simp [hc] at hn⟩

theorem Achieves.of_ok {h : Dealings} {t : Session} {gs : List Grant}
    (hh : changesIn h = hook.changes s queue) (hl : s.Clears t (changesIn h)) :
    hook.Achieves s queue h (t, .ok gs) :=
  ⟨fun _ _ => hh, by simp, hl⟩

theorem Achieves.of_error {h : Dealings} {t : Session} {e : GatewayError}
    (hh : changesIn h = []) (ht : t.owner = s.owner)
    (hs : t.phase ≠ .connected → s.phase ≠ .connected) :
    hook.Achieves s queue h (t, .error e) :=
  ⟨by simp, fun _ _ => hh, ht, fun hn => .inl ⟨hs hn, hh⟩⟩

theorem achieves_refused (e : GatewayError) : hook.Achieves s queue [] (s, .error e) :=
  .of_error rfl rfl id

theorem obeys_of_quiet {α : Type} {a : Work Session α} {f : α → Except GatewayError (List Grant)}
    (hnone : hook.changes s queue = [])
    (ha : a.Obeys (fun _ t c => t = s ∧ c.isAwaited = true) (fun _ _ => True) []) :
    (a.bind fun x => .done (s, f x)).Obeys (hook.Heeds s queue) (hook.Achieves s queue) [] := by
  refine obeys_bind.2 ((obeys_quiet ha).mono (fun h _ t c hc => ?_) fun h _ x hx => ?_)
  · obtain ⟨⟨rfl, hawaited⟩, hnothing⟩ := hc
    exact .of_isAwaited hawaited (hnothing ▸ Session.clears_self t)
  · have hnothing : changesIn h = [] := hx.2
    exact ⟨fun _ _ => hnothing.trans hnone.symm, fun _ _ => hnothing,
      hnothing ▸ Session.clears_self s⟩

theorem claims_of_mem_changes {c : Call} (hc : c ∈ hook.changes s queue) :
    c.Claims s.owner (· = queue) := by
  cases hook with
  | subscribe gs =>
    rw [List.mem_singleton.1 hc]
    refine ⟨rfl, ?_⟩
    rintro _ _ _ ⟨⟩
    refine ⟨rfl, fun e he e' he' heq => ?_⟩
    obtain ⟨g, -, rfl⟩ := List.mem_map.1 he
    obtain ⟨g', -, rfl⟩ := List.mem_map.1 he'
    exact Prod.ext heq heq
  | unsubscribe gs =>
    obtain ⟨g, -, rfl⟩ := List.mem_map.1 hc
    exact ⟨rfl, by simp [Session.change]⟩
  | disconnect =>
    simp only [changes] at hc
    split at hc
    · rw [List.mem_singleton.1 hc]
      exact ⟨rfl, by simp⟩
    · cases hc
  | _ => cases hc

def added : Hook → List String
  | subscribe gs => gs.map fun g => Topic.edgeFilter g.channel
  | _ => []

def Removes (f : String) (p : Phase) : Hook → Prop
  | unsubscribe gs => ∃ g ∈ gs, Topic.edgeFilter g.channel = f
  | disconnect => p = .connected
  | _ => False

theorem lasts_changes {token f : String} {drops : Call → Prop} :
    Lasts (fun c => ∃ q, c.Makes ⟨s.owner, token, f, q⟩) drops (hook.changes s queue) ↔
      token = f ∧ f ∈ hook.added := by
  cases hook with
  | subscribe gs =>
    rw [changes, lasts_singleton]
    simp only [Call.Makes, added, List.mem_map, Prod.mk.injEq, true_and]
    constructor
    · rintro ⟨_, ⟨g, hg, rfl, rfl⟩, rfl⟩
      exact ⟨rfl, g, hg, rfl⟩
    · rintro ⟨rfl, g, hg, rfl⟩
      exact ⟨queue, ⟨g, hg, rfl, rfl⟩, rfl⟩
  | unsubscribe gs =>
    refine iff_of_false (not_lasts fun c hc => ?_) (by simp [added])
    obtain ⟨g, -, rfl⟩ := List.mem_map.1 hc
    rintro ⟨q, hm⟩
    exact hm
  | disconnect =>
    refine iff_of_false (not_lasts fun c hc => ?_) (by simp [added])
    rintro ⟨q, hm⟩
    simp only [changes] at hc
    split at hc
    · rw [List.mem_singleton.1 hc] at hm
      exact hm
    · cases hc
  | _ => exact iff_of_false not_lasts_nil (by simp [added])

theorem exists_drops_changes {f : String} {q : QueueId} (hf : f ∉ hook.added) :
    (∃ c ∈ hook.changes s queue, c.Drops ⟨s.owner, f, f, q⟩) ↔ hook.Removes f s.phase := by
  cases hook with
  | subscribe gs =>
    refine iff_of_false ?_ id
    rintro ⟨c, hc, hd⟩
    rw [List.mem_singleton.1 hc] at hd
    obtain ⟨-, e, he, rfl⟩ := hd
    obtain ⟨g, hg, rfl⟩ := List.mem_map.1 he
    exact hf (List.mem_map.2 ⟨g, hg, rfl⟩)
  | unsubscribe gs => simp [changes, Session.change, Call.Drops, Removes, eq_comm]
  | disconnect =>
    simp only [changes, Removes]
    split
    · rename_i hs
      simp [Call.Drops, hs]
    · rename_i hs
      simp [hs]
  | _ => exact iff_of_false (by simp [changes]) id

theorem subscribe_changes (gs : List Grant) :
    ((Hook.subscribe gs).work st m queue s).Obeys ((Hook.subscribe gs).Heeds s queue)
      ((Hook.subscribe gs).Achieves s queue) [] := by
  refine obeys_bind.2 (Session.obeys_whenConnected (achieves_refused _) fun client hs => ?_)
  have hphase := (Session.connected?_eq_some_iff.1 hs).1
  split
  · exact achieves_refused _
  · refine ⟨.of_change rfl ?_, fun _ => obeys_bind.2 ?_⟩
    · simp [changes, changesIn, Function.comp_def]
    · refine (obeys_quiet (Session.emitEach_quiet _)).mono (fun h _ t c hc => ?_)
        fun h _ _ hh => .of_ok ?_ (Session.clears_of_connected rfl hphase _)
      · obtain ⟨⟨rfl, hawaited⟩, -⟩ := hc
        exact .of_isAwaited hawaited (Session.clears_of_connected rfl hphase _)
      · rw [hh.2]
        simp [changes, changesIn, Call.isAwaited, Function.comp_def]

theorem unsubscribe_changes (gs : List Grant) :
    ((Hook.unsubscribe gs).work st m queue s).Obeys ((Hook.unsubscribe gs).Heeds s queue)
      ((Hook.unsubscribe gs).Achieves s queue) [] := by
  refine obeys_bind.2 (Session.obeys_whenConnected (achieves_refused _) fun client hs => ?_)
  have hphase := (Session.connected?_eq_some_iff.1 hs).1
  split
  · exact achieves_refused _
  · have hwork := Session.deregisterEach_changes (s := s) (h := []) st m client [] gs rfl
    refine obeys_bind.2 (hwork.mono (fun h _ t c hc => ⟨hc.2, fun _ => ?_⟩)
      fun h _ _ hh => .of_ok hh (Session.clears_of_connected rfl hphase _))
    exact Session.clears_of_connected (hc.1 ▸ rfl) (hc.1 ▸ hphase) _

theorem disconnect_changes :
    (Hook.disconnect.work st m queue s).Obeys (Hook.disconnect.Heeds s queue)
      (Hook.disconnect.Achieves s queue) [] := by
  have hunconnected : ∀ {t : Session}, t.owner = s.owner → s.phase ≠ .connected →
      Hook.disconnect.Achieves s queue [] (t, .ok []) := by
    intro t ht hs
    exact .of_ok (if_neg hs).symm (Session.clears_of_fresh ht hs)
  simp only [work, Session.disconnect]
  split
  · rename_i hs
    exact hunconnected rfl (by simp [hs])
  · rename_i hs
    exact hunconnected rfl (by simp [hs])
  · rename_i hs
    exact hunconnected rfl (by simp [hs])
  · rename_i hs
    exact hunconnected rfl (by simp [hs])
  · rename_i hs
    have hchanges : Hook.disconnect.changes s queue = [.deregisterOwner s.owner] := if_pos hs
    have hclears : s.Clears { s with phase := .disconnected } [.deregisterOwner s.owner] :=
      ⟨rfl, fun _ => .inr rfl⟩
    refine ⟨.of_change rfl (hchanges ▸ List.prefix_refl _), fun _ => ?_⟩
    split
    · exact .of_ok hchanges.symm hclears
    · exact ⟨.of_isAwaited rfl hclears, fun _ => .of_ok hchanges.symm hclears⟩

theorem authConnect_changes (secret : String) :
    ((Hook.authConnect secret).work st m queue s).Obeys ((Hook.authConnect secret).Heeds s queue)
      ((Hook.authConnect secret).Achieves s queue) [] := by
  simp only [work, Session.authConnect]
  split
  · exact achieves_refused _
  · rename_i hs
    have hfresh : s.phase ≠ .connected := by simp [Decidable.not_not.1 hs]
    split
    · exact .of_error rfl rfl fun _ => hfresh
    · refine ⟨.of_isAwaited rfl (Session.clears_of_fresh rfl hfresh), fun r => ?_⟩
      cases r with
      | ok client => exact .of_ok rfl (Session.clears_of_fresh rfl hfresh)
      | error e => exact .of_error rfl rfl fun _ => hfresh

theorem connect_changes :
    (Hook.connect.work st m queue s).Obeys (Hook.connect.Heeds s queue)
      (Hook.connect.Achieves s queue) [] := by
  simp only [work, Session.connect]
  split
  · have hclears : s.Clears { s with phase := .connected, connectedAt := some (m 0) } [] :=
      ⟨rfl, fun hn => absurd rfl hn⟩
    exact ⟨.of_isAwaited rfl hclears, fun _ => .of_ok rfl hclears⟩
  · exact achieves_refused _

theorem work_changes (hook : Hook) (st : Settings) (m : Moments) (queue : QueueId) (s : Session) :
    (hook.work st m queue s).Obeys (hook.Heeds s queue) (hook.Achieves s queue) [] := by
  cases hook with
  | authConnect secret => exact authConnect_changes secret
  | connect => exact connect_changes
  | authPublish topic => exact obeys_of_quiet rfl (Session.authPublish_quiet topic)
  | publish g payload => exact obeys_of_quiet rfl (Session.publish_quiet g payload)
  | authSubscribe topics =>
    exact obeys_of_quiet rfl (Session.obeys_whenConnected trivial
      fun client _ => Session.requestFilters_quiet .subscribe topics)
  | subscribe gs => exact subscribe_changes gs
  | authUnsubscribe topics =>
    exact obeys_of_quiet rfl (Session.obeys_whenConnected trivial
      fun client _ => Session.requestFilters_quiet .unsubscribe topics)
  | unsubscribe gs => exact unsubscribe_changes gs
  | disconnect => exact disconnect_changes

end Hook

theorem Observe.owner_inj {client d : ClientId} :
    Observe.owner client = Observe.owner d ↔ client = d := by
  constructor
  · intro h
    have hl := congrArg String.toList h
    simp only [Observe.owner, String.toList_append] at hl
    cases client
    cases d
    exact congrArg _ (String.toList_inj.1 (List.append_cancel_left hl))
  · exact congrArg Observe.owner

theorem Observe.owner_ne_session (client : ClientId) (name : String) :
    Observe.owner client ≠ "session:" ++ name := by
  intro h
  have hl := congrArg String.toList h
  simp [Observe.owner, String.toList_append] at hl

inductive Observation
  | subscribe (key channel subtopic token : String) (queue : QueueId)
  | unsubscribe (key channel subtopic token : String)

namespace Observation

def work (st : Settings) (m : Moment) : Observation → Attempt Unit Unit
  | subscribe key channel subtopic token queue =>
    Observe.subscribe st m key channel subtopic token queue
  | unsubscribe key channel subtopic token => Observe.unsubscribe st m key channel subtopic token

def key : Observation → String
  | subscribe key _ _ _ _ | unsubscribe key _ _ _ => key

def topic : Observation → String
  | subscribe _ channel subtopic _ _ | unsubscribe _ channel subtopic _ =>
    Observe.topic channel subtopic

def token : Observation → String
  | subscribe _ _ _ token _ | unsubscribe _ _ _ token => token

def queue? : Observation → Option QueueId
  | subscribe _ _ _ _ queue => some queue
  | unsubscribe .. => none

def action : Observation → Action
  | subscribe .. => .subscribe
  | unsubscribe .. => .unsubscribe

def change (client : ClientId) (c : Channel) : Observation → Call
  | subscribe _ _ _ token queue =>
    .register (Observe.owner client) [(token, Topic.edgeFilter c)] queue
  | unsubscribe _ _ _ token => .deregisterFilter (Observe.owner client) token (Topic.edgeFilter c)

def IsBy (e : Observation) (h : Dealings) (client : ClientId) : Prop :=
  h.head? = some ⟨.identify e.key, .ok client⟩

/-- The change that the observation is for, in the name of the client that it is by. -/
def Means (e : Observation) (h : Dealings) (c : Call) : Prop :=
  ∃ client channel, e.IsBy h client ∧ Topic.parseFilter e.topic = .ok channel ∧
    Allowed h client channel.id e.action ∧ c = e.change client channel

structure Heeds (e : Observation) (h : Dealings) (c : Call) : Prop where
  once : c.isAwaited = false → changesIn h = []
  means : c.isAwaited = false → e.Means h c

structure Achieves (e : Observation) (h : Dealings) (r : Except GatewayError Unit) : Prop where
  ok : r = .ok () → ∃ c, changesIn h = [c] ∧ e.Means h c
  error : ∀ why, r = .error why → changesIn h = []

variable {e : Observation} {st : Settings} {m : Moment} {h h' : Dealings} {c : Call}

theorem claims_change (e : Observation) (client : ClientId) (c : Channel) :
    (e.change client c).Claims (Observe.owner client) (e.queue? = some ·) := by
  cases e with
  | subscribe key channel subtopic token queue =>
    refine ⟨rfl, ?_⟩
    rintro _ _ _ ⟨⟩
    refine ⟨rfl, fun e he e' he' _ => ?_⟩
    rw [List.mem_singleton.1 he, List.mem_singleton.1 he']
  | unsubscribe key channel subtopic token => exact ⟨rfl, by simp [change]⟩

variable {client d : ClientId} {channel : Channel} {token filter : String} {queue : QueueId}

theorem makes_change_iff : (e.change client channel).Makes ⟨Observe.owner d, token, filter, queue⟩ ↔
    client = d ∧ e.token = token ∧ e.queue? = some queue ∧ Topic.edgeFilter channel = filter := by
  cases e with
  | subscribe key c subtopic t q =>
    simp only [change, Call.Makes, Observe.owner_inj, List.mem_singleton, Prod.mk.injEq,
      Observation.token, queue?, Option.some.injEq]
    constructor
    · rintro ⟨rfl, ⟨rfl, rfl⟩, rfl⟩
      exact ⟨rfl, rfl, rfl, rfl⟩
    · rintro ⟨rfl, rfl, rfl, rfl⟩
      exact ⟨rfl, ⟨rfl, rfl⟩, rfl⟩
  | unsubscribe key c subtopic t => simp [change, Call.Makes, queue?]

theorem drops_change_iff : (e.change client channel).Drops ⟨Observe.owner d, token, filter, queue⟩ ↔
    client = d ∧ e.token = token ∧
      (e.action = .subscribe ∨ Topic.edgeFilter channel = filter) := by
  cases e with
  | subscribe key c subtopic t q =>
    simp [change, Call.Drops, Observe.owner_inj, Observation.token, action, eq_comm]
  | unsubscribe key c subtopic t =>
    simp [change, Call.Drops, Observe.owner_inj, Observation.token, action, eq_comm]

theorem Means.mono (hm : e.Means h c) (hh : h <+: h') : e.Means h' c := by
  obtain ⟨client, channel, hby, hparse, ha, rfl⟩ := hm
  refine ⟨client, channel, ?_, hparse, ha.mono hh, rfl⟩
  obtain ⟨more, rfl⟩ := hh
  rw [IsBy, List.head?_append, hby]
  rfl

theorem request_quiet (key channel subtopic : String) (action : Action) :
    (Observe.request key channel subtopic action).Obeys (fun _ _ c => True ∧ c.isAwaited = true)
      (fun h r => ∀ client c, r = .ok (client, c) → h.head? = some ⟨.identify key, .ok client⟩ ∧
        Topic.parseFilter (Observe.topic channel subtopic) = .ok c ∧
        Allowed h client c.id action) [] := by
  refine ⟨⟨trivial, rfl⟩, fun r => ?_⟩
  cases r with
  | error e =>
    rintro _ _ ⟨⟩
  | ok client =>
    dsimp only
    split
    · rintro _ _ ⟨⟩
    · rename_i c hc
      refine ⟨⟨trivial, rfl⟩, fun r => ?_⟩
      cases r with
      | error e =>
        rintro _ _ ⟨⟩
      | ok u =>
        rintro _ _ ⟨⟩
        exact ⟨rfl, hc, by simp [Allowed]⟩

theorem Heeds.of_isAwaited (hc : c.isAwaited = true) : e.Heeds h c :=
  ⟨fun hn => by simp [hc] at hn, fun hn => by simp [hc] at hn⟩

theorem obeys_of_request {request : Attempt Unit (ClientId × Channel)}
    (rest : (client : ClientId) → (c : Channel) → (e.change client c).Reply → Attempt Unit Unit)
    (hchange : ∀ client c, (e.change client c).isAwaited = false)
    (hrequest : request.Obeys (fun _ _ c => True ∧ c.isAwaited = true) (fun h r =>
      ∀ client c, r = .ok (client, c) → e.Means h (e.change client c)) [])
    (hrest : ∀ client c r h, (rest client c r).Obeys (fun _ _ c => True ∧ c.isAwaited = true)
      (fun _ r => r = .ok ()) h) :
    (request.andThen fun x => .call () (e.change x.1 x.2) (rest x.1 x.2)).Obeys
      (fun h _ => e.Heeds h) e.Achieves [] := by
  refine obeys_andThen.2 ((obeys_quiet hrequest).mono
    (fun _ _ _ _ hc => .of_isAwaited hc.1.2) fun h _ r hr => ?_)
  obtain ⟨hmeans, hnothing⟩ := hr
  cases r with
  | error why => exact ⟨by simp, fun _ _ => hnothing⟩
  | ok x =>
    obtain ⟨client, c⟩ := x
    have hm := hmeans client c rfl
    refine ⟨⟨fun _ => hnothing, fun _ => hm⟩, fun reply => ?_⟩
    have hone : changesIn (h ++ [⟨e.change client c, reply⟩]) = [e.change client c] := by
      rw [changesIn_concat, hnothing, hchange]
      rfl
    refine (obeys_quiet (hrest client c reply _)).mono (fun _ _ _ _ hc => .of_isAwaited hc.1.2)
      fun h' hh r hr => ⟨fun _ => ⟨_, hr.2.trans hone, ?_⟩, by simp [hr.1]⟩
    exact hm.mono ((List.prefix_append _ _).trans hh)

theorem work_changes (e : Observation) (st : Settings) (m : Moment) :
    (e.work st m).Obeys (fun h _ => e.Heeds h) e.Achieves [] := by
  cases e with
  | subscribe key channel subtopic token queue =>
    refine obeys_of_request (e := .subscribe key channel subtopic token queue)
      (fun client c _ =>
        (emit () (Observe.event st m .subscribe client c)).bind fun _ => .done (.ok ()))
      (fun _ _ => rfl)
      ((request_quiet key channel subtopic .subscribe).imp fun h _ r hr client c hc => ?_)
      fun client c r h => ?_
    · exact ⟨client, c, (hr client c hc).1, (hr client c hc).2.1, (hr client c hc).2.2, rfl⟩
    · exact ⟨⟨trivial, rfl⟩, fun _ => rfl⟩
  | unsubscribe key channel subtopic token =>
    refine obeys_of_request (e := .unsubscribe key channel subtopic token)
      (fun client c (removed : Bool) =>
        if removed then
          (emit () (Observe.event st m .unsubscribe client c)).bind fun _ => .done (.ok ())
        else .done (.ok ()))
      (fun _ _ => rfl)
      ((request_quiet key channel subtopic .unsubscribe).imp fun h _ r hr client c hc => ?_)
      fun client c (removed : Bool) h => ?_
    · exact ⟨client, c, (hr client c hc).1, (hr client c hc).2.1, (hr client c hc).2.2, rfl⟩
    · cases removed with
      | true => exact ⟨⟨trivial, rfl⟩, fun _ => rfl⟩
      | false => exact rfl

end Observation

end DeviceGateway
