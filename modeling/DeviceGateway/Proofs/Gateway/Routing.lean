import DeviceGateway.Proofs.Session.Connecting
import DeviceGateway.Proofs.Topic.Coverage

/-!
# From a publish to the queues

A publish that a session makes on an open bus reaches the forwarder as one delivery. Passed on, it
adds to the open queue of every session one notification for each of its filters that cover the
topic, as far as there is room, and to no other queue.
-/

namespace DeviceGateway

theorem Session.start_owner_inj {a b : String} {p q : Protocol}
    (h : (Session.start a p).owner = (Session.start b q).owner) : a = b := by
  have hl := congrArg String.toList h
  simp only [Session.start, String.toList_append] at hl
  exact String.toList_inj.1 (List.append_cancel_left hl)

/-- The forwarder takes its next delivery and passes it on. -/
def Services.Relays (s : Services) (id : SubscriptionId) (d : Delivery) (t : Services) : Prop :=
  ∃ bus, s.bus.receive id = (bus, .delivery d) ∧ t = { s with bus := bus }.forward d

namespace Topic

theorem filterMatches_iff_reaches {f topic : String} {cf ct : Channel} (hf : f = edgeFilter cf)
    (hcf : parseFilter f = .ok cf) (hct : parse topic = .ok ct) :
    Subject.filterMatches f (edgeTopic ct.id ct.subtopic) = true ↔ Reaches f ct := by
  obtain ⟨ts, hplain, hsub⟩ := parse_ok hct
  rw [Reaches, hcf, hf]
  exact filterMatches_iff (pattern_of_parseFilter hcf) hplain hsub

end Topic

namespace SharedSessions
variable {ι : Type} [DecidableEq ι] {lends : ClientId → ClientId → Prop} {deeds : List (Deed ι)}
variable {w₀ w : SharedSessions ι}

theorem Run.uses (hr : Run lends w₀ deeds w) : Bus.Uses w₀.services.bus w.services.bus := by
  induction hr with
  | start => exact .refl
  | step _ hs ih =>
    cases hs with
    | hear k hd hw ht => exact ih.trans ht.bus
    | elsewhere ht =>
      cases ht with
      | bus hb => exact ih.trans hb
      | queues qs => exact ih
      | forward d => exact ih
    | _ => exact ih

omit [DecidableEq ι] in
theorem Sound.owner_iff (h : Sound lends w₀ deeds w) (hbegins : w₀.Begins) (k : ι)
    {r : Registration} (hr : r ∈ w.services.broker.registrations) :
    r.queue = (w.states k).queue ↔ r.owner = (w.states k).session.owner := by
  obtain ⟨j, howner, hqueue, -, -⟩ := h.registered r hr
  obtain ⟨name, hname, hfresh⟩ := hbegins.fresh
  rw [hqueue, howner, (h.states k).queue, (h.states k).owner]
  constructor
  · intro hjk
    rw [hbegins.queues hjk]
  · intro hjk
    obtain ⟨p, hj⟩ := hfresh j
    obtain ⟨q, hk⟩ := hfresh k
    rw [hj, hk] at hjk
    rw [hname (Session.start_owner_inj hjk)]

omit [DecidableEq ι] in
theorem Sound.length_notifications (h : Sound lends w₀ deeds w) (hbegins : w₀.Begins) (k : ι)
    {topic : String} {ct : Channel} (hct : Topic.parse topic = .ok ct) (message : Message) :
    (Broker.notifications w.services.broker.registrations (Topic.edgeTopic ct.id ct.subtopic) message
      (w.states k).queue).length =
    ((w.services.broker.filtersOf (w.states k).session.owner).filter
      (Topic.Reaches · ct)).length := by
  have htoken : ∀ r ∈ w.services.broker.registrations, r.owner = (w.states k).session.owner →
      r.token = r.filter := by
    intro r hr _
    obtain ⟨j, -, -, ht, -⟩ := h.registered r hr
    exact ht
  rw [h.keyed.filtersOf htoken, List.filter_map, List.length_map, List.filter_filter,
    Broker.notifications, List.length_map]
  congr 1
  refine List.filter_congr fun r hr => ?_
  obtain ⟨j, -, -, -, cf, hf, hcf⟩ := h.registered r hr
  have hreaches := Topic.filterMatches_iff_reaches hf hcf hct
  have howner := h.owner_iff hbegins k hr
  rw [Bool.eq_iff_iff]
  simp only [decide_eq_true_eq, Bool.and_eq_true, Function.comp_apply, hreaches, howner]
  exact and_comm

/-- The services `t` are those of `w` once a message to `ct` was passed on: every session with an
open queue has what its filters are for, and no other queue has changed. -/
structure Routed (w : SharedSessions ι) (ct : Channel) (payload : Bytes) (t : Services) : Prop where
  added : ∀ k q, w.services.queues[(w.states k).queue]? = some q → q.isOpen = true →
    ∃ q' more, t.queues[(w.states k).queue]? = some q' ∧ q'.items = q.items ++ more ∧
      q'.isOpen = true ∧ q'.capacity = q.capacity ∧
      more.length = min q.free
        ((w.services.broker.filtersOf (w.states k).session.owner).filter
          (Topic.Reaches · ct)).length ∧
      ∀ n ∈ more, n.message.payload = payload ∧ Topic.parse n.topic = .ok ct
  others : ∀ i, (∀ k q, (w.states k).queue = i → w.services.queues[i]? = some q →
    q.isOpen = false) → t.queues[i]? = w.services.queues[i]?

omit [DecidableEq ι] in
theorem Routed.of_empty {ct : Channel} {payload : Bytes} {t : Services}
    (h : Routed w ct payload t) {k : ι} {q : Queue}
    (hq : w.services.queues[(w.states k).queue]? = some q) (hopen : q.isOpen = true)
    (hempty : q.items = []) :
    ∃ q', t.queues[(w.states k).queue]? = some q' ∧
      q'.items.length = min q.capacity
        ((w.services.broker.filtersOf (w.states k).session.owner).filter
          (Topic.Reaches · ct)).length ∧
      ∀ n ∈ q'.items, n.message.payload = payload ∧ Topic.parse n.topic = .ok ct := by
  obtain ⟨q', more, hq', hitems, -, -, hlength, hmore⟩ := h.added k q hq hopen
  rw [hempty, List.nil_append] at hitems
  refine ⟨q', hq', ?_, fun n hn => hmore n (hitems ▸ hn)⟩
  rw [hitems, hlength, Queue.free, hempty]
  rfl

omit [DecidableEq ι] in
theorem Sound.routed (h : Sound lends w₀ deeds w) (hbegins : w₀.Begins) {topic : String}
    {ct : Channel} (hct : Topic.parse topic = .ok ct) {d : Delivery}
    (hd : d.message.channel = ct.id ∧ d.message.subtopic = ct.subtopic) {id : SubscriptionId}
    {t : Services} (ht : w.services.Relays id d t) : Routed w ct d.message.payload t := by
  obtain ⟨bus, -, rfl⟩ := ht
  let t : Services := { w.services with bus := bus }.forward d
  have hqueues : ∀ i : QueueId, t.queues[i]? =
      w.services.queues[i]?.map fun q : Queue => q.offerAll (Broker.notifications
        w.services.broker.registrations (Topic.edgeTopic ct.id ct.subtopic) d.message i) := by
    intro i
    rw [← hd.1, ← hd.2]
    exact Broker.getElem?_publish_queues _ _ _ _ i
  change Routed w ct d.message.payload t
  constructor
  · intro k q hq hopen
    let ns := Broker.notifications w.services.broker.registrations
      (Topic.edgeTopic ct.id ct.subtopic) d.message (w.states k).queue
    refine ⟨q.offerAll ns, ns.take q.free, by rw [hqueues, hq]; rfl, Queue.offerAll_items hopen ns,
      (Queue.offerAll_isOpen q ns).trans hopen, Queue.offerAll_capacity q ns, ?_, ?_⟩
    · rw [List.length_take, h.length_notifications hbegins k hct]
    · intro n hn
      obtain ⟨r, -, rfl⟩ := List.mem_map.1 (List.mem_of_mem_take hn)
      obtain ⟨ts, hplain, hsub⟩ := Topic.parse_ok hct
      exact ⟨rfl, Topic.parse_edgeTopic hplain hsub⟩
  · intro i hi
    rw [hqueues]
    cases hq : w.services.queues[i]? with
    | none => rfl
    | some q =>
      by_cases hopen : q.isOpen = true
      · have hnobody : ∀ r ∈ w.services.broker.registrations, r.queue ≠ i := by
          intro r hr hri
          obtain ⟨k, -, hqueue, -⟩ := h.registered r hr
          have hclosed := hi k q ((h.states k).queue.trans (hqueue.symm.trans hri)) hq
          rw [hopen] at hclosed
          cases hclosed
        rw [Broker.notifications_of_forall_ne hnobody]
        rfl
      · exact congrArg some (Queue.offerAll_of_closed (Bool.eq_false_iff.2 hopen) _)

omit [DecidableEq ι] in
theorem publish_run_services {s : Session} {st : Settings} {m : Moment} {g : Grant}
    {payload : Bytes} {now : Nat} {services v : Services} {r : Outcome (Except GatewayError Unit)}
    (h : (s.publish st m g payload).run (Services.answer now) services = (v, r)) :
    v.broker = services.broker ∧ v.queues = services.queues := by
  obtain rfl : ((s.publish st m g payload).run (Services.answer now) services).1 = v :=
    congrArg Prod.fst h
  simp only [Session.publish, Session.whenConnected]
  split
  · split
    · exact ⟨rfl, rfl⟩
    · rename_i client _ _
      simp only [Activity.run, Services.answer]
      cases (services.bus.publish (Topic.subject st.subjectLead g.channel)
        (.to g.channel client s.protocol payload m)).2 <;> exact ⟨rfl, rfl⟩
  · exact ⟨rfl, rfl⟩

theorem perform_publish {k : ι} {m : Moment} (hm : m = ⟨0, 0⟩) {g : Grant} {payload : Bytes}
    {v : Services} {r : Except GatewayError Unit} (hidle : (w.states k).doing = none)
    (hissued : ∃ i ∈ w.issued, i.grant = g ∧ (w.states k).session.connected? = some i.client)
    (hrun : ((w.states k).session.publish w.services.settings m g payload).run (Services.answer 0)
      w.services = (v, .answer r)) :
    ∃ u, w.perform k (.publish g payload) = some u ∧ u.services = v ∧ u.states = w.states := by
  subst hm
  have hready : (w.states k).doing.isNone = true ∧ ∀ g' ∈ (Hook.publish g payload).grants,
      ∃ i ∈ w.issued, i.grant = g' ∧ (w.states k).session.connected? = some i.client :=
    ⟨by rw [hidle]; rfl, fun g' hg' => by rwa [List.mem_singleton.1 hg']⟩
  refine ⟨_, by simp only [perform, if_pos hready, Hook.work, Activity.run_bind, hrun]; rfl,
    rfl, ?_⟩
  funext j
  rw [states_setState]
  split
  · rename_i hj
    rw [hj, ← hidle]
  · rfl

/-- A publish of a connected session on an open bus is accepted and reaches the forwarder as one
delivery; and whenever that delivery is passed on, every session gets it as often as its filters
and the room in its queue say. -/
theorem publish_reaches_queues (hbegins : w₀.Begins) (hbus : Bus.Uses {} w₀.services.bus)
    (hr : Run lends w₀ deeds w) (hopen : w.services.bus.isClosed = false)
    (hlead : Subject.isSubject w.services.settings.subjectLead = true) {id : SubscriptionId}
    (hf : Forwarder.Subscribed w.services.settings.subjectLead w.services.bus id) {k : ι}
    {client : ClientId} (hs : (w.states k).session.connected? = some client) {topic : String}
    {ct : Channel} (hct : Topic.parse topic = .ok ct) (payload : Bytes) (m : Moment) (now : Nat) :
    ∃ d v box,
      ((w.states k).session.publish w.services.settings m ⟨ct, .publish⟩ payload).run
        (Services.answer now) w.services = (v, .answer (.ok ())) ∧
      w.services.bus.mailboxes[id]? = some box ∧
      v.bus.mailboxes[id]? = some { box with waiting := box.waiting ++ [d] } ∧
      ∀ later u t, Run lends w₀ later u → u.services.Relays id d t → Routed u ct payload t := by
  have horderly := Bus.Uses.orderly (hbus.trans hr.uses) Bus.orderly_empty
  let message : Message := .to ct client (w.states k).session.protocol payload m
  obtain ⟨hreply, box, hbox, hposted⟩ := Bus.publish_subject hopen horderly hlead hf hct message
  have hrun : ((w.states k).session.publish w.services.settings m ⟨ct, .publish⟩ payload).run
      (Services.answer now) w.services =
        ({ w.services with bus := (w.services.bus.publish
          (Topic.subject w.services.settings.subjectLead ct) message).1 }, .answer (.ok ())) := by
    simp only [Session.publish, Session.whenConnected, hs, ne_eq, not_true_eq_false, if_false,
      Activity.run, Services.answer]
    rw [hreply]
    rfl
  refine ⟨_, _, box, hrun, hbox, hposted, fun later u t hu ht => ?_⟩
  exact (hu.sound hbegins).routed hbegins hct ⟨rfl, rfl⟩ ht

/-- Two clients and a forwarder; the queue of the first session has room for one notification, that
of the second for four, and the first client may publish. -/
def beforeTwo : SharedSessions Bool where
  services := {
    registrar := { store := ⟨[("first", ⟨"a"⟩), ("second", ⟨"b"⟩)]⟩ }
    policy := ⟨[⟨"*", "c", .subscribe⟩, ⟨"a", "c", .publish⟩]⟩
    bus := (Forwarder.subscribe {} "mqtt").1
    queues := ((Queues.add [] 1).1.add 4).1 }
  states
    | false => { session := .start "1" .mqtt, queue := 0 }
    | true => { session := .start "2" .mqtt, queue := 1 }

def topicX : Channel := ⟨⟨"c", by decide⟩, "x"⟩

/-- Both connect and subscribe to all topics of a channel in two ways, the second also to a topic
that is not published on; the first gets leave to publish. -/
def twoSubscribers : List (Bool × Hook) :=
  let c : ChannelId := ⟨"c", by decide⟩
  let grants : List Grant := [⟨⟨c, "*"⟩, .subscribe⟩, ⟨⟨c, ">"⟩, .subscribe⟩]
  let topics := ["channels/c/messages/+", "channels/c/messages/#"]
  let subscribes (k : Bool) (secret : String) : List (Bool × Hook) :=
    [(k, .authConnect secret), (k, .connect), (k, .authSubscribe topics), (k, .subscribe grants)]
  subscribes false "first" ++ subscribes true "second" ++
    [(true, .authSubscribe ["channels/c/messages/y"]),
      (true, .subscribe [⟨⟨c, "y"⟩, .subscribe⟩]), (false, .authPublish "channels/c/messages/x")]

def BothSubscribed (w : SharedSessions Bool) : Prop :=
  w.services.settings.subjectLead = "mqtt" ∧ w.services.bus.isClosed = false ∧
    w.services.bus.registry = [0] ∧
    w.services.bus.mailboxes.map (fun box => (box.pattern, box.waiting, box.held)) =
      [("mqtt.>", [], true)] ∧
    w.services.queues.map (fun q => (q.capacity, q.items, q.isOpen)) =
      [(1, [], true), (4, [], true)] ∧
    ((w.states false).queue, (w.states true).queue) = (0, 1) ∧
    (w.states false).session.connected? = some ⟨"a"⟩ ∧ (w.states false).doing.isNone = true ∧
    (∃ i ∈ w.issued, i.grant = ⟨topicX, .publish⟩ ∧ some ⟨"a"⟩ = some i.client) ∧
    w.services.broker.filtersOf (w.states false).session.owner =
      ["channels/c/messages/+", "channels/c/messages/#"] ∧
    w.services.broker.filtersOf (w.states true).session.owner =
      ["channels/c/messages/+", "channels/c/messages/#", "channels/c/messages/y"]

instance : DecidablePred BothSubscribed := fun _ => inferInstanceAs (Decidable (_ ∧ _))

theorem twoSubscribers_perform : ∃ w, beforeTwo.performAll twoSubscribers = some w ∧
    BothSubscribed w := by
  have hany : (beforeTwo.performAll twoSubscribers).any BothSubscribed = true := by decide +kernel
  simpa [Option.any_eq_true] using hany

theorem begins_beforeTwo : beforeTwo.Begins where
  fresh := ⟨fun k => if k then "2" else "1", fun i j => by revert i j; decide,
    fun k => ⟨.mqtt, by cases k <;> rfl⟩⟩
  queues := fun i j => by revert i j; decide
  idle := fun k => by cases k <;> rfl
  issued := rfl
  registrations := rfl

theorem BothSubscribed.forwarder {w : SharedSessions Bool} (h : BothSubscribed w) :
    Subject.isSubject w.services.settings.subjectLead = true ∧
      Forwarder.Subscribed w.services.settings.subjectLead w.services.bus 0 ∧
      ∃ box, w.services.bus.mailboxes = [box] ∧ box.waiting = [] := by
  obtain ⟨hlead, -, hregistry, hboxes, -⟩ := h
  obtain ⟨box, hbox, hbox'⟩ := List.map_eq_singleton_iff.1 hboxes
  obtain ⟨hpattern, hwaiting, hheld⟩ : box.pattern = "mqtt.>" ∧ box.waiting = [] ∧
      box.held = true := by simpa using hbox'
  refine ⟨by rw [hlead]; decide, ⟨by simp [hregistry], box, by simp [hbox], ?_, hheld⟩, box, hbox,
    hwaiting⟩
  rw [hpattern, hlead]
  rfl

/-- Two of the filters of either session match, but the queue of the first has room for one. -/
theorem BothSubscribed.routed {w u : SharedSessions Bool} {t : Services} (h : BothSubscribed w)
    (hbroker : u.services.broker = w.services.broker)
    (hqueues : u.services.queues = w.services.queues) (hstates : u.states = w.states)
    (ht : Routed u topicX [1] t) :
    (∃ q, t.queues[0]? = some q ∧ q.items.length = 1) ∧
      ∃ q, t.queues[1]? = some q ∧ q.items.length = 2 ∧
        ∀ n ∈ q.items, n.message.payload = [1] ∧ Topic.parse n.topic = .ok topicX := by
  obtain ⟨-, -, -, -, hboth, hplaces, -, -, -, hfirst, hsecond⟩ := h
  obtain ⟨hplace, hplace'⟩ := Prod.mk.injEq .. ▸ hplaces
  obtain ⟨q, qs, hqs, hq, hrest⟩ := List.map_eq_cons_iff.1 hboth
  obtain ⟨q', rfl, hq'⟩ := List.map_eq_singleton_iff.1 hrest
  obtain ⟨hroom, hempty, hopen⟩ : q.capacity = 1 ∧ q.items = [] ∧ q.isOpen = true := by
    simpa using hq
  obtain ⟨hroom', hempty', hopen'⟩ : q'.capacity = 4 ∧ q'.items = [] ∧ q'.isOpen = true := by
    simpa using hq'
  have htook := ht.of_empty (k := false) (q := q) (by simp [hqueues, hstates, hplace, hqs]) hopen
    hempty
  have htook' := ht.of_empty (k := true) (q := q') (by simp [hqueues, hstates, hplace', hqs])
    hopen' hempty'
  rw [hstates, hbroker, hplace, hfirst, hroom] at htook
  rw [hstates, hbroker, hplace', hsecond, hroom'] at htook'
  have hone : ["channels/c/messages/+", "channels/c/messages/#"].filter (Topic.Reaches · topicX) =
      ["channels/c/messages/+", "channels/c/messages/#"] := by decide
  have htwo : ["channels/c/messages/+", "channels/c/messages/#", "channels/c/messages/y"].filter
      (Topic.Reaches · topicX) = ["channels/c/messages/+", "channels/c/messages/#"] := by decide
  rw [hone] at htook
  rw [htwo] at htook'
  obtain ⟨p, hp, hlength, -⟩ := htook
  exact ⟨⟨p, hp, hlength⟩, htook'⟩

/-- The first of two subscribers publishes, and the delivery is passed on: its own queue takes one
of two notifications, that of the other both, and none for the filter that does not match. -/
theorem publish_reaches_queues_of_two_subscribers :
    ∃ (w₀ w : SharedSessions Bool) (deeds : List (Deed Bool)), w₀.Begins ∧
      Bus.Uses {} w₀.services.bus ∧ Run Eq w₀ deeds w ∧ w.services.bus.isClosed = false ∧
      Subject.isSubject w.services.settings.subjectLead = true ∧
      Forwarder.Subscribed w.services.settings.subjectLead w.services.bus 0 ∧
      (w.states false).session.connected? = some ⟨"a"⟩ ∧
      Topic.parse "channels/c/messages/x" = .ok topicX ∧
      w.services.broker.filtersOf (w.states true).session.owner =
        ["channels/c/messages/+", "channels/c/messages/#", "channels/c/messages/y"] ∧
      ∃ d v, ((w.states false).session.publish w.services.settings ⟨0, 0⟩ ⟨topicX, .publish⟩
          [1]).run (Services.answer 0) w.services = (v, .answer (.ok ())) ∧
        ∃ later u t, Run Eq w₀ later u ∧ u.services = v ∧ u.services.Relays 0 d t ∧
          Routed u topicX [1] t ∧
          (∃ q, t.queues[0]? = some q ∧ q.items.length = 1) ∧
          ∃ q, t.queues[1]? = some q ∧ q.items.length = 2 ∧
            ∀ n ∈ q.items, n.message.payload = [1] ∧ Topic.parse n.topic = .ok topicX := by
  have hbus : Bus.Uses {} beforeTwo.services.bus := .single (.enroll "mqtt.>")
  have hct : Topic.parse "channels/c/messages/x" = .ok topicX := by decide
  obtain ⟨w, hw, hboth⟩ := twoSubscribers_perform
  obtain ⟨deeds, hr⟩ := (Run.start : Run Eq beforeTwo [] beforeTwo).performsAll (fun _ => rfl) hw
  obtain ⟨hsubject, hf, box, hbox, hwaiting⟩ := hboth.forwarder
  have hboth' := hboth
  obtain ⟨-, hopen, -, -, -, -, hclient, hidle, hissued, -, hsecond⟩ := hboth'
  obtain ⟨d, v, box', hrun, hbox', hposted, hrouted⟩ := publish_reaches_queues begins_beforeTwo
    hbus hr hopen hsubject hf hclient hct [1] ⟨0, 0⟩ 0
  have hsame : box' = box := by simpa [hbox] using hbox'.symm
  subst hsame
  obtain ⟨hbroker, hkept⟩ := publish_run_services hrun
  obtain ⟨u, hu, rfl, hstates⟩ := perform_publish rfl (Option.isNone_iff_eq_none.1 hidle)
    (by rwa [hclient]) hrun
  obtain ⟨later, hlater⟩ := hr.performs (fun _ => rfl) hu
  have ht : u.services.Relays 0 d ({ u.services with
      bus := u.services.bus.modify 0 fun box => { box with waiting := [] } }.forward d) :=
    ⟨_, by simp only [Bus.receive, hposted, hwaiting, List.nil_append], rfl⟩
  have hall := hrouted later u _ hlater ht
  exact ⟨beforeTwo, w, deeds, begins_beforeTwo, hbus, hr, hopen, hsubject, hf, hclient, hct,
    hsecond, d, _, hrun, later, u, _, hlater, rfl, ht, hall,
    hboth.routed hbroker hkept hstates hall⟩

end SharedSessions

end DeviceGateway
