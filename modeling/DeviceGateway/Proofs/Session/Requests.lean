import DeviceGateway.Proofs.Session.Replying
import DeviceGateway.Proofs.Session.Returning

/-!
# Requests with many topics and grants

A connected session is given leave for all topics of a request or for none, and acts on all grants
that it is handed or on none. What it subscribes to is added to what it has registered, and each
grant is recorded; what it unsubscribes from is taken away, and each filter that was there is
recorded once, for the first grant that names it.
-/

namespace DeviceGateway
open Activity (returns_done_iff returns_call_iff returns_bind_iff yields_iff)

def Grant.filter (g : Grant) : String := Topic.edgeFilter g.channel

def Grant.firsts (gs : List Grant) : List Grant := gs.eraseDupsBy fun g g' => g.filter == g'.filter

def allowing (client : ClientId) (action : Action) (cs : List Channel) : Dealings :=
  cs.map fun c => ⟨.authorize client c.id action, .ok ()⟩

def Broker.has (b : Broker) (owner token : String) : Bool := (b.find? owner token).isSome

/-- A request for leave on `topics` comes to this. -/
structure Asked (client : ClientId) (action : Action) (topics : List String) (v : Services)
    (d : Dealings) (r : Except GatewayError (List Grant)) (w : Services) : Prop where
  broker : w.broker = v.broker
  events : eventsOf d.calls = []
  granted : ∀ gs, r = .ok gs ↔ ∃ cs, topics.map Topic.parseFilter = cs.map .ok ∧
    d = allowing client action cs ∧ gs = cs.map (⟨·, action⟩)
  allowed : ∀ policy : ChannelId → Except AccessError Unit,
    (∀ id reply, (⟨.authorize client id action, reply⟩ : Σ c : Call, c.Reply) ∈ d →
      reply = policy id) →
    ((∃ gs, r = .ok gs) ↔
      ∀ topic ∈ topics, ∃ c, Topic.parseFilter topic = .ok c ∧ policy c.id = .ok ())

structure Misused (client : ClientId) (action : Action) (gs : List Grant) (v : Services)
    (d : Dealings) (r : Except GatewayError (List String)) (w : Services) : Prop where
  refused : ∃ g ∈ gs, g.action ≠ action ∧ r = .error (Session.misused client g action)
  calls : d = []
  services : w = v

namespace Session

structure Subscribed (s : Session) (st : Settings) (m : Moments) (client : ClientId)
    (gs : List Grant) (queue : QueueId) (v : Services) (d : Dealings)
    (r : Except GatewayError (List String)) (w : Services) : Prop where
  grants : ∀ g ∈ gs, g.action = .subscribe
  returns : r = .ok (gs.map Grant.filter)
  registered : ∀ x, x ∈ w.broker.registrations ↔
    (∃ g ∈ gs, x = ⟨s.owner, g.filter, g.filter, queue⟩) ∨
      x ∈ v.broker.registrations ∧ ∀ g ∈ gs, x.key ≠ (s.owner, g.filter)
  tokens : ∀ token, w.broker.has s.owner token = true ↔
    v.broker.has s.owner token = true ∨ token ∈ gs.map Grant.filter
  events : eventsOf d.calls = gs.mapIdx fun i => s.event st (m i) client .subscribe

structure Unsubscribed (s : Session) (st : Settings) (m : Moments) (client : ClientId)
    (gs : List Grant) (v : Services) (d : Dealings) (r : Except GatewayError (List String))
    (w : Services) : Prop where
  grants : ∀ g ∈ gs, g.action = .unsubscribe
  returns : r = .ok (gs.map Grant.filter)
  registered : ∀ x, x ∈ w.broker.registrations ↔
    x ∈ v.broker.registrations ∧ ∀ g ∈ gs, x.key ≠ (s.owner, g.filter)
  tokens : ∀ token, w.broker.has s.owner token = true ↔
    v.broker.has s.owner token = true ∧ token ∉ gs.map Grant.filter
  events : eventsOf d.calls =
    ((Grant.firsts gs).filter fun g => v.broker.has s.owner g.filter).mapIdx
      fun i => s.event st (m i) client .unsubscribe

end Session

namespace Judged
variable {read : String → Except TopicError Channel} {client : ClientId} {action : Action}
variable {topics : List String} {d : Dealings} {v : Except GatewayError (List Channel)}

theorem of_allowing {cs : List Channel} (h : topics.map read = cs.map .ok) :
    Judged read client action topics (allowing client action cs) (.ok cs) := by
  induction cs generalizing topics with
  | nil =>
    obtain rfl := List.map_eq_nil_iff.1 h
    exact .none
  | cons c cs ih =>
    obtain ⟨topic, rest, rfl, hc, hrest⟩ := List.map_eq_cons_iff.1 h
    exact .allowed hc (ih hrest)

theorem granted {cs : List Channel} (h : Judged read client action topics d (.ok cs)) :
    topics.map read = cs.map .ok ∧ d = allowing client action cs := by
  generalize hv : Except.ok cs = v at h
  induction h generalizing cs with
  | none =>
    cases hv
    exact ⟨rfl, rfl⟩
  | unreadable | denied => cases hv
  | @allowed topic rest c d v hc _ ih =>
    cases v with
    | error e => cases hv
    | ok cs' =>
      cases hv
      obtain ⟨hrest, rfl⟩ := ih rfl
      exact ⟨by rw [List.map_cons, List.map_cons, hc, hrest], rfl⟩

theorem granted_iff (h : Judged read client action topics d v) (cs : List Channel) :
    v = .ok cs ↔ topics.map read = cs.map .ok ∧ d = allowing client action cs := by
  constructor
  · rintro rfl
    exact h.granted
  · rintro ⟨htopics, rfl⟩
    exact (h.unique (of_allowing htopics) (List.prefix_refl _) (List.prefix_refl _)).2

theorem allowed_iff (h : Judged read client action topics d v)
    {policy : ChannelId → Except AccessError Unit}
    (hp : ∀ id reply, (⟨.authorize client id action, reply⟩ : Σ c : Call, c.Reply) ∈ d →
      reply = policy id) :
    (∃ cs, v = .ok cs) ↔ ∀ topic ∈ topics, ∃ c, read topic = .ok c ∧ policy c.id = .ok () := by
  induction h with
  | none => simp
  | unreadable hread => simp [hread]
  | denied hread =>
    have hdenied := hp _ _ List.mem_cons_self
    simp [hread, ← hdenied]
  | @allowed topic rest c d v hread _ ih =>
    have hallowed := hp _ _ List.mem_cons_self
    rw [List.forall_mem_cons, ← ih fun id reply hmem => hp id reply (List.mem_cons_of_mem _ hmem)]
    cases v <;> simp [hread, ← hallowed, Except.map]

theorem awaited (h : Judged read client action topics d v) :
    ∀ e ∈ d, e.1.isAwaited = true ∧ e.1.event? = Option.none := by
  induction h with
  | none | unreadable => simp
  | denied => simp [Call.isAwaited, Call.event?]
  | allowed _ _ ih => exact List.forall_mem_cons.2 ⟨⟨rfl, rfl⟩, ih⟩

end Judged

theorem eventsOf_eq_nil {cs : List Call} (h : ∀ c ∈ cs, c.event? = none) : eventsOf cs = [] :=
  List.filterMap_eq_nil_iff.2 h

namespace Session
variable {s : Session} {client : ClientId} {st : Settings} {m : Moments} {v w : Services}
variable {d : Dealings}

theorem requestFilters_yields (s : Session) (client : ClientId) (action : Action)
    (topics : List String) (v : Services) :
    (requestFilters s client action topics).Yields v (Asked client action topics v) := by
  refine yields_iff.2 fun d r w h => ?_
  obtain ⟨asked, given, hd, hj, rfl⟩ :=
    h.result (requestFilters_judged (h := []) s client action topics)
  obtain rfl : d = asked := hd
  have hquiet := hj.awaited
  refine ⟨h.broker_eq fun e he => (hquiet e he).1, eventsOf_eq_nil ?_, fun gs => ?_,
    fun policy hp => ?_⟩
  · intro c hc
    obtain ⟨e, he, rfl⟩ := List.mem_map.1 hc
    exact (hquiet e he).2
  · constructor
    · intro hgs
      cases given with
      | error e => cases hgs
      | ok cs =>
        obtain ⟨htopics, hd⟩ := hj.granted
        exact ⟨cs, htopics, hd, (Except.ok.inj hgs).symm⟩
    · rintro ⟨cs, htopics, hd, rfl⟩
      rw [(hj.granted_iff cs).2 ⟨htopics, hd⟩]
      rfl
  · rw [← hj.allowed_iff hp]
    cases given <;> simp [Except.map]

theorem authSubscribe_yields (hs : s.connected? = some client) (topics : List String)
    (v : Services) : (s.authSubscribe topics).Yields v (Asked client .subscribe topics v) := by
  simpa only [authSubscribe, whenConnected, hs] using requestFilters_yields s client _ topics v

theorem authUnsubscribe_yields (hs : s.connected? = some client) (topics : List String)
    (v : Services) : (s.authUnsubscribe topics).Yields v (Asked client .unsubscribe topics v) := by
  simpa only [authUnsubscribe, whenConnected, hs] using requestFilters_yields s client _ topics v

end Session

namespace Broker
variable {b : Broker} {owner token : String}

theorem has_iff : b.has owner token = true ↔ ∃ x ∈ b.registrations, x.key = (owner, token) := by
  simp [has, find?, List.find?_isSome]

theorem has_erase (token' : String) :
    (b.erase owner token).has owner token' = (b.has owner token' && token' != token) := by
  rw [Bool.eq_iff_iff, Bool.and_eq_true, has_iff, has_iff, bne_iff_ne]
  simp only [mem_erase]
  constructor
  · rintro ⟨x, ⟨hx, hne⟩, hk⟩
    exact ⟨⟨x, hx, hk⟩, fun heq => hne (hk.trans (by rw [heq]))⟩
  · rintro ⟨⟨x, hx, hk⟩, hne⟩
    exact ⟨x, ⟨hx, fun heq => hne (Prod.mk.inj (hk.symm.trans heq)).2⟩, hk⟩

end Broker

theorem eraseDupsBy_filter {α : Type} {r : α → α → Bool} {p : α → Bool}
    (hp : ∀ a b, r a b = true → p a = p b) (l : List α) :
    (l.filter p).eraseDupsBy r = (l.eraseDupsBy r).filter p := by
  induction hn : l.length using Nat.strong_induction_on generalizing l with
  | h n ih =>
    cases l with
    | nil => rfl
    | cons a l =>
      have hle := List.length_filter_le (fun b => decide (r b a = false)) l
      have hrest := ih _ (by simp at hn; omega) (l.filter fun b => decide (r b a = false)) rfl
      rw [List.eraseDupsBy_cons, List.filter_cons, List.filter_cons, ← hrest]
      split
      · rw [List.eraseDupsBy_cons, List.filter_filter, List.filter_filter]
        simp only [Bool.and_comm]
      · rename_i ha
        -- No element that satisfies `p` equals the first one.
        congr 1
        rw [List.filter_filter]
        refine List.filter_congr fun b _ => ?_
        cases hb : r b a with
        | false => simp
        | true => simp [hp b a hb, ha]

theorem Grant.firsts_cons (g : Grant) (gs : List Grant) :
    Grant.firsts (g :: gs) = g :: (Grant.firsts gs).filter fun g' => g'.filter != g.filter := by
  rw [firsts, List.eraseDupsBy_cons, firsts, ← eraseDupsBy_filter]
  · congr 3
    funext g'
    rw [Bool.eq_iff_iff]
    simp
  · intro a b h
    simp only [beq_iff_eq.1 h]

theorem Broker.filter_firsts_cons (b : Broker) (owner : String) (g : Grant) (gs : List Grant) :
    ((Grant.firsts (g :: gs)).filter fun g' => b.has owner g'.filter) =
      (if b.has owner g.filter = true then [g] else []) ++
        (Grant.firsts gs).filter fun g' => (b.erase owner g.filter).has owner g'.filter := by
  rw [Grant.firsts_cons, List.filter_cons, List.filter_filter]
  simp only [Broker.has_erase]
  split <;> rfl

namespace Session
variable {s : Session} {client : ClientId} {st : Settings} {m : Moments} {v w : Services}
variable {d : Dealings}

theorem emitEach_returns {events : List Event} {u : Unit}
    (h : (emitEach s events).Returns v d u w) :
    eventsOf d.calls = events ∧ w.broker = v.broker := by
  induction events generalizing v d with
  | nil =>
    obtain ⟨rfl, -, rfl⟩ := returns_done_iff.1 h
    exact ⟨rfl, rfl⟩
  | cons e rest ih =>
    obtain ⟨r, u, d', rfl, hanswer, hk⟩ := returns_call_iff.1 h
    obtain ⟨hevents, hbroker⟩ := ih hk
    exact ⟨congrArg (e :: ·) hevents, hbroker.trans (hanswer.broker_eq rfl)⟩

theorem misuse_refused {action : Action} {gs : List Grant} {g : Grant}
    (h : misuse? action gs = some g) :
    Misused client action gs v [] (.error (misused client g action)) v :=
  ⟨⟨g, List.mem_of_find?_eq_some h, by simpa using List.find?_some h, rfl⟩, rfl, rfl⟩

theorem mem_registerAll_filters (b : Broker) (owner : String) (gs : List Grant) (queue : QueueId)
    (x : Registration) :
    x ∈ (b.registerAll owner ((gs.map Grant.filter).map fun f => (f, f)) queue).registrations ↔
      (∃ g ∈ gs, x = ⟨owner, g.filter, g.filter, queue⟩) ∨
        x ∈ b.registrations ∧ ∀ g ∈ gs, x.key ≠ (owner, g.filter) := by
  have hclear : Broker.Clear ((gs.map Grant.filter).map fun f => (f, f)) := by
    intro e he e' he' heq
    obtain ⟨f, -, rfl⟩ := List.mem_map.1 he
    obtain ⟨f', -, rfl⟩ := List.mem_map.1 he'
    exact Prod.ext heq heq
  rw [Broker.mem_registerAll_iff hclear]
  obtain ⟨o, token, filter, q⟩ := x
  simp only [List.map_map, List.mem_map, Function.comp_apply, Prod.mk.injEq, Registration.mk.injEq,
    Registration.key, ne_eq]
  refine or_congr ?_ (and_congr_right fun _ => ?_)
  · constructor
    · rintro ⟨rfl, ⟨g, hg, rfl, rfl⟩, rfl⟩
      exact ⟨g, hg, rfl, rfl, rfl, rfl⟩
    · rintro ⟨g, hg, rfl, rfl, rfl, rfl⟩
      exact ⟨rfl, ⟨g, hg, rfl, rfl⟩, rfl⟩
  · constructor
    · rintro hnot g hg ⟨rfl, rfl⟩
      exact hnot ⟨rfl, _, ⟨g, hg, rfl⟩, rfl⟩
    · rintro hnot ⟨rfl, _, ⟨g, hg, rfl⟩, rfl⟩
      exact hnot g hg ⟨rfl, rfl⟩

theorem exists_kept_iff {b : Broker} {owner token : String} {gs : List Grant} :
    (∃ x, (x ∈ b.registrations ∧ ∀ g ∈ gs, x.key ≠ (owner, g.filter)) ∧ x.key = (owner, token)) ↔
      b.has owner token = true ∧ token ∉ gs.map Grant.filter := by
  rw [Broker.has_iff, List.mem_map]
  constructor
  · rintro ⟨x, ⟨hx, hnot⟩, hk⟩
    exact ⟨⟨x, hx, hk⟩, fun ⟨g, hg, hf⟩ => hnot g hg (hk.trans (by rw [hf]))⟩
  · rintro ⟨⟨x, hx, hk⟩, hnot⟩
    refine ⟨x, ⟨hx, fun g hg heq => hnot ⟨g, hg, ?_⟩⟩, hk⟩
    exact (Prod.mk.inj (heq.symm.trans hk)).2

theorem has_left_iff {b b' : Broker} {owner token : String} {gs : List Grant}
    (h : ∀ x, x ∈ b'.registrations ↔
      x ∈ b.registrations ∧ ∀ g ∈ gs, x.key ≠ (owner, g.filter)) :
    b'.has owner token = true ↔ b.has owner token = true ∧ token ∉ gs.map Grant.filter := by
  rw [← exists_kept_iff, Broker.has_iff]
  simp only [h]

theorem has_registered_iff {b b' : Broker} {owner token : String} {gs : List Grant}
    {queue : QueueId} (h : ∀ x, x ∈ b'.registrations ↔
      (∃ g ∈ gs, x = ⟨owner, g.filter, g.filter, queue⟩) ∨
        x ∈ b.registrations ∧ ∀ g ∈ gs, x.key ≠ (owner, g.filter)) :
    b'.has owner token = true ↔ b.has owner token = true ∨ token ∈ gs.map Grant.filter := by
  have hnew : (∃ x : Registration, (∃ g ∈ gs, x = ⟨owner, g.filter, g.filter, queue⟩) ∧
      x.key = (owner, token)) ↔ token ∈ gs.map Grant.filter := by
    rw [List.mem_map]
    constructor
    · rintro ⟨x, ⟨g, hg, rfl⟩, hk⟩
      exact ⟨g, hg, (Prod.mk.inj hk).2⟩
    · rintro ⟨g, hg, rfl⟩
      exact ⟨_, ⟨g, hg, rfl⟩, rfl⟩
  rw [Broker.has_iff]
  simp only [h, or_and_right, exists_or, hnew, exists_kept_iff]
  tauto

theorem subscribe_yields (hs : s.connected? = some client) (st : Settings) (m : Moments)
    (gs : List Grant) (queue : QueueId) (v : Services) :
    (s.subscribe st m gs queue).Yields v fun d r w =>
      Misused client .subscribe gs v d r w ∨ s.Subscribed st m client gs queue v d r w := by
  refine yields_iff.2 fun d r w h => ?_
  simp only [subscribe, whenConnected, hs] at h
  split at h
  · rename_i g hg
    obtain ⟨rfl, rfl, rfl⟩ := returns_done_iff.1 h
    exact .inl (misuse_refused hg)
  · rename_i hnone
    obtain ⟨reply, u, d', rfl, hanswer, hk⟩ := returns_call_iff.1 h
    obtain ⟨d₁, d₂, x, u', rfl, hemit, hdone⟩ := returns_bind_iff.1 hk
    obtain ⟨rfl, rfl, rfl⟩ := returns_done_iff.1 hdone
    obtain ⟨hevents, hbroker⟩ := emitEach_returns hemit
    have hbroker : w.broker = v.broker.registerAll s.owner
        ((gs.map Grant.filter).map fun f => (f, f)) queue := hbroker.trans hanswer.register
    have hregistered := mem_registerAll_filters v.broker s.owner gs queue
    rw [← hbroker] at hregistered
    refine .inr ⟨misuse?_eq_none_iff.1 hnone, rfl, hregistered, fun token => ?_, ?_⟩
    · exact has_registered_iff hregistered
    · rw [List.append_nil]
      exact hevents

theorem deregisterEach_returns {gs : List Grant} {x : Unit}
    (h : (deregisterEach st m s client gs).Returns v d x w) :
    (∀ x, x ∈ w.broker.registrations ↔
      x ∈ v.broker.registrations ∧ ∀ g ∈ gs, x.key ≠ (s.owner, g.filter)) ∧
    eventsOf d.calls = ((Grant.firsts gs).filter fun g => v.broker.has s.owner g.filter).mapIdx
      fun i => s.event st (m i) client .unsubscribe := by
  induction gs generalizing v d m with
  | nil =>
    obtain ⟨rfl, -, rfl⟩ := returns_done_iff.1 h
    exact ⟨by simp, rfl⟩
  | cons g rest ih =>
    obtain ⟨(removed : Bool), u, d', rfl, hanswer, hk⟩ := returns_call_iff.1 h
    obtain ⟨hbroker, hremoved⟩ : u.broker = v.broker.erase s.owner g.filter ∧
        removed = v.broker.has s.owner g.filter := Prod.mk.inj hanswer.deregister
    -- The grants that are left go on with the same registrations, whether or not it was recorded.
    have hrest : ∃ (more : Dealings) (u' : Services) (m' : Moments), u'.broker = u.broker ∧
        (∀ gs : List Grant,
          eventsOf more.calls = (gs.mapIdx fun i => s.event st (m' i) client .unsubscribe) →
          eventsOf (Dealings.calls d') = ((if removed = true then [g] else []) ++ gs).mapIdx
            fun i => s.event st (m i) client .unsubscribe) ∧
        (deregisterEach st m' s client rest).Returns u' more x w := by
      cases removed with
      | false => exact ⟨d', u, m, rfl, fun gs h => h, hk⟩
      | true =>
        obtain ⟨reply, u', more, rfl, hrecord, hk⟩ := returns_call_iff.1 hk
        refine ⟨more, u', fun i => m (i + 1), hrecord.broker_eq rfl, fun gs h => ?_, hk⟩
        rw [if_pos rfl, List.singleton_append, List.mapIdx_cons, ← h]
        rfl
    obtain ⟨more, u', m', hsame, hfirst, hk⟩ := hrest
    obtain ⟨hregistered, hevents⟩ := ih hk
    constructor
    · intro y
      rw [hregistered, hsame, hbroker, Broker.mem_erase, List.forall_mem_cons, and_assoc]
    · rw [Broker.filter_firsts_cons, ← hremoved, ← hbroker, ← hsame]
      exact hfirst _ hevents

theorem unsubscribe_yields (hs : s.connected? = some client) (st : Settings) (m : Moments)
    (gs : List Grant) (v : Services) :
    (s.unsubscribe st m gs).Yields v fun d r w =>
      Misused client .unsubscribe gs v d r w ∨ s.Unsubscribed st m client gs v d r w := by
  refine yields_iff.2 fun d r w h => ?_
  simp only [unsubscribe, whenConnected, hs] at h
  split at h
  · rename_i g hg
    obtain ⟨rfl, rfl, rfl⟩ := returns_done_iff.1 h
    exact .inl (misuse_refused hg)
  · rename_i hnone
    obtain ⟨d₁, d₂, x, u, rfl, heach, hdone⟩ := returns_bind_iff.1 h
    obtain ⟨rfl, rfl, rfl⟩ := returns_done_iff.1 hdone
    obtain ⟨hregistered, hevents⟩ := deregisterEach_returns heach
    refine .inr ⟨misuse?_eq_none_iff.1 hnone, rfl, hregistered, fun token => ?_, ?_⟩
    · exact has_left_iff hregistered
    · rwa [List.append_nil]

/-- Requests of a connected session, for any topics and with any grants: leave is given for all or
none, grants are used all or none, and what is returned, registered and recorded agrees. -/
theorem requests_all_or_nothing (hs : s.connected? = some client) (st : Settings) (m : Moments)
    (v : Services) :
    (∀ topics, (s.authSubscribe topics).Yields v (Asked client .subscribe topics v)) ∧
    (∀ topics, (s.authUnsubscribe topics).Yields v (Asked client .unsubscribe topics v)) ∧
    (∀ gs queue, (s.subscribe st m gs queue).Yields v fun d r w =>
      Misused client .subscribe gs v d r w ∨ s.Subscribed st m client gs queue v d r w) ∧
    ∀ gs, (s.unsubscribe st m gs).Yields v fun d r w =>
      Misused client .unsubscribe gs v d r w ∨ s.Unsubscribed st m client gs v d r w :=
  ⟨fun topics => authSubscribe_yields hs topics v, fun topics => authUnsubscribe_yields hs topics v,
    fun gs queue => subscribe_yields hs st m gs queue v, fun gs => unsubscribe_yields hs st m gs v⟩

theorem requests_all_or_nothing_of_repeated :
    ∃ (s : Session) (v : Services) (a b : Grant), s.connected? = some ⟨"p"⟩ ∧
      a.filter = "channels/c1/messages/a" ∧ b.filter = "channels/c1/messages/b" ∧
      v.broker.registrations = [⟨s.owner, a.filter, a.filter, 0⟩] ∧
      (s.unsubscribe {} (fun _ => ⟨0, 0⟩) [b, a, b, a]).Yields v fun d r w =>
        r = .ok [b.filter, a.filter, b.filter, a.filter] ∧ w.broker.registrations = [] ∧
          eventsOf d.calls = [s.event {} ⟨0, 0⟩ ⟨"p"⟩ .unsubscribe a] := by
  let s : Session := { Session.start "1" .mqtt with phase := .connected, client := some ⟨"p"⟩ }
  let a : Grant := ⟨⟨⟨"c1", by decide⟩, "a"⟩, .unsubscribe⟩
  let b : Grant := ⟨⟨⟨"c1", by decide⟩, "b"⟩, .unsubscribe⟩
  let v : Services := {
    registrar := { store := ⟨[]⟩ }, policy := ⟨[]⟩
    broker := ⟨[⟨s.owner, a.filter, a.filter, 0⟩]⟩ }
  have hs : s.connected? = some ⟨"p"⟩ := rfl
  have hall : ∀ g ∈ [b, a, b, a], g.action = .unsubscribe := by decide
  obtain ⟨hreturns, hright⟩ := (requests_all_or_nothing hs {} (fun _ => ⟨0, 0⟩) v).2.2.2 [b, a, b, a]
  refine ⟨s, v, a, b, hs, by decide, by decide, rfl, hreturns, fun d r w h => ?_⟩
  rcases hright d r w h with hmisused | hdone
  · obtain ⟨g, hg, hne, -⟩ := hmisused.refused
    exact absurd (hall g hg) hne
  · have hevents : (Grant.firsts [b, a, b, a]).filter
        (fun g => v.broker.has s.owner g.filter) = [a] := by
      decide
    refine ⟨hdone.returns, List.eq_nil_iff_forall_not_mem.2 fun x hx => ?_, ?_⟩
    · obtain ⟨hx, hnot⟩ := (hdone.registered x).1 hx
      obtain rfl := List.mem_singleton.1 hx
      exact hnot a (by simp) rfl
    · rw [hdone.events, hevents]
      rfl

end Session

end DeviceGateway
