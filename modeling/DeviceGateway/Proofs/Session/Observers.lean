import DeviceGateway.Proofs.Session.Observing
import DeviceGateway.Proofs.Session.Returning
import DeviceGateway.Proofs.Topic.Names

/-!
# Observers, one call after the other

Observers call in any order, with any keys, and their calls may fail at any stage. A call that fails
has changed nothing. One that returns has made its own change and nothing else, and what it records
tells whether something was changed. So what is registered for an observer is what was last recorded
as subscribed to, and a recorded end always has its beginning.
-/

namespace DeviceGateway
open Activity (returns_done_iff returns_call_iff returns_bind_iff returns_andThen_iff)

/-- Leave for the client of `key` to act on `place`, as it comes out when this was asked and
replied. -/
inductive Inquiry (key : String) (place : Except TopicError Channel) (action : Action) :
    Dealings → Except GatewayError (ClientId × Channel) → Prop
  | unknown (why : AccessError) :
      Inquiry key place action [⟨.identify key, .error why⟩] (.error (.authentication why))
  | unreadable (client : ClientId) {why : TopicError} (h : place = .error why) :
      Inquiry key place action [⟨.identify key, .ok client⟩] (.error (.authorization (.topic why)))
  | denied (client : ClientId) {c : Channel} (h : place = .ok c) (why : AccessError) :
      Inquiry key place action
        [⟨.identify key, .ok client⟩, ⟨.authorize client c.id action, .error why⟩]
        (.error (.authorization (.access why)))
  | allowed (client : ClientId) {c : Channel} (h : place = .ok c) :
      Inquiry key place action
        [⟨.identify key, .ok client⟩, ⟨.authorize client c.id action, .ok ()⟩] (.ok (client, c))

theorem Inquiry.eventsOf_append {key : String} {place : Except TopicError Channel}
    {action : Action} {d : Dealings} {r : Except GatewayError (ClientId × Channel)}
    (h : Inquiry key place action d r) (more : Dealings) :
    eventsOf (Dealings.calls (d ++ more)) = eventsOf more.calls := by
  cases h <;> rfl

theorem Inquiry.silent {key : String} {place : Except TopicError Channel} {action : Action}
    {d : Dealings} {r : Except GatewayError (ClientId × Channel)}
    (h : Inquiry key place action d r) : eventsOf d.calls = [] := by
  cases h <;> rfl

theorem Observe.request_inquires {key channel subtopic : String} {action : Action}
    {v w : Services} {d : Dealings} {r : Except GatewayError (ClientId × Channel)}
    (h : (Observe.request key channel subtopic action).Returns v d r w) :
    Inquiry key (Topic.parseFilter (Observe.topic channel subtopic)) action d r ∧
      w.broker = v.broker := by
  obtain ⟨identified, u, d', rfl, hidentify, hk⟩ := returns_call_iff.1 h
  have hbroker := hidentify.broker_eq rfl
  cases identified with
  | error why =>
    obtain ⟨rfl, rfl, rfl⟩ := returns_done_iff.1 hk
    exact ⟨.unknown why, hbroker⟩
  | ok client =>
    dsimp only at hk
    split at hk
    · rename_i why hplace
      obtain ⟨rfl, rfl, rfl⟩ := returns_done_iff.1 hk
      exact ⟨.unreadable client hplace, hbroker⟩
    · rename_i c hplace
      obtain ⟨reply, u', d'', rfl, hauthorize, hk⟩ := returns_call_iff.1 hk
      have hbroker' := (hauthorize.broker_eq rfl).trans hbroker
      cases reply with
      | error why =>
        obtain ⟨rfl, rfl, rfl⟩ := returns_done_iff.1 hk
        exact ⟨.denied client hplace why, hbroker'⟩
      | ok u =>
        obtain ⟨rfl, rfl, rfl⟩ := returns_done_iff.1 hk
        exact ⟨.allowed client hplace, hbroker'⟩

theorem Observe.request_granted {key channel subtopic : String} {c : Channel}
    (hplace : Topic.parseFilter (Observe.topic channel subtopic) = .ok c) (action : Action)
    (client : ClientId) (v : Services) : (Observe.request key channel subtopic action).Returns v
      [⟨.identify key, .ok client⟩, ⟨.authorize client c.id action, .ok ()⟩] (.ok (client, c))
      v := by
  simp only [Observe.request, hplace]
  exact .call (v.answers_unchanged rfl _) (.call (v.answers_unchanged rfl _) (.done _ v))

theorem Observe.request_andThen {key channel subtopic : String} {action : Action}
    {k : ClientId × Channel → Attempt Unit Unit} {v w : Services} {d : Dealings}
    {r : Except GatewayError Unit}
    (h : ((Observe.request key channel subtopic action).andThen k).Returns v d r w) :
    (∃ why, r = .error why ∧ w.broker = v.broker ∧
      Inquiry key (Topic.parseFilter (Observe.topic channel subtopic)) action d (.error why)) ∨
    ∃ asked d' client c u, d = asked ++ d' ∧ u.broker = v.broker ∧
      Inquiry key (Topic.parseFilter (Observe.topic channel subtopic)) action asked
        (.ok (client, c)) ∧ (k (client, c)).Returns u d' r w := by
  rcases returns_andThen_iff.1 h with ⟨why, rfl, hrequest⟩ | ⟨asked, d', x, u, rfl, hrequest, hk⟩
  · obtain ⟨hinquiry, hbroker⟩ := Observe.request_inquires hrequest
    exact .inl ⟨why, rfl, hbroker, hinquiry⟩
  · obtain ⟨hinquiry, hbroker⟩ := Observe.request_inquires hrequest
    exact .inr ⟨asked, d', x.1, x.2, u, rfl, hbroker, hinquiry, hk⟩

namespace Observation

def effect (client : ClientId) (c : Channel) (b : Broker) : Observation → Broker × Bool
  | subscribe _ _ _ token queue =>
    (b.register ⟨Observe.owner client, token, Topic.edgeFilter c, queue⟩, true)
  | unsubscribe _ _ _ token => b.deregisterFilter (Observe.owner client) token (Topic.edgeFilter c)

/-- All that a call of an observer can come to. -/
inductive Ends (e : Observation) (st : Settings) (m : Moment) (v : Services) :
    Dealings → Except GatewayError Unit → Services → Prop
  | refused {d : Dealings} {why : GatewayError} {w : Services}
      (h : Inquiry e.key (Topic.parseFilter e.topic) e.action d (.error why))
      (hbroker : w.broker = v.broker) : Ends e st m v d (.error why) w
  | done {asked d : Dealings} {client : ClientId} {c : Channel} {w : Services}
      (h : Inquiry e.key (Topic.parseFilter e.topic) e.action asked (.ok (client, c)))
      (hasked : asked <+: d) (hbroker : w.broker = (e.effect client c v.broker).1)
      (hevents : eventsOf d.calls = if (e.effect client c v.broker).2 = true then
        [Observe.event st m e.operation client c] else []) : Ends e st m v d (.ok ()) w

theorem ends {e : Observation} {st : Settings} {m : Moment} {v w : Services} {d : Dealings}
    {r : Except GatewayError Unit} (h : (e.work st m).Returns v d r w) : e.Ends st m v d r w := by
  cases e with
  | subscribe key channel subtopic token queue =>
    rcases Observe.request_andThen h with ⟨why, rfl, hbroker, hinquiry⟩ |
      ⟨asked, d', client, c, u, rfl, hbroker, hinquiry, hk⟩
    · exact .refused hinquiry hbroker
    · obtain ⟨reply, u', d'', rfl, hregister, hk⟩ := returns_call_iff.1 hk
      obtain ⟨recorded, u'', d', rfl, hrecord, hk⟩ := returns_call_iff.1 hk
      obtain ⟨rfl, rfl, rfl⟩ := returns_done_iff.1 hk
      refine .done hinquiry (List.prefix_append _ _) ?_ (hinquiry.eventsOf_append _)
      rw [hrecord.broker_eq rfl, hregister.register, hbroker]
      rfl
  | unsubscribe key channel subtopic token =>
    rcases Observe.request_andThen h with ⟨why, rfl, hbroker, hinquiry⟩ |
      ⟨asked, d', client, c, u, rfl, hbroker, hinquiry, hk⟩
    · exact .refused hinquiry hbroker
    · obtain ⟨(removed : Bool), u', d'', rfl, hderegister, hk⟩ := returns_call_iff.1 hk
      have heffect : (unsubscribe key channel subtopic token).effect client c v.broker =
          (u'.broker, removed) := hbroker ▸ hderegister.deregisterFilter.symm
      cases removed with
      | false =>
        obtain ⟨rfl, rfl, rfl⟩ := returns_done_iff.1 hk
        refine .done hinquiry (List.prefix_append _ _) ?_ ?_
        · rw [heffect]
        · rw [heffect]
          exact hinquiry.eventsOf_append _
      | true =>
        obtain ⟨recorded, u'', d', rfl, hrecord, hk⟩ := returns_call_iff.1 hk
        obtain ⟨rfl, rfl, rfl⟩ := returns_done_iff.1 hk
        refine .done hinquiry (List.prefix_append _ _) ?_ ?_
        · rw [heffect]
          exact hrecord.broker_eq rfl
        · rw [heffect]
          exact hinquiry.eventsOf_append _

end Observation

theorem Broker.deregisterFilter_cases {b : Broker} (hk : b.Keyed) (owner token filter : String) :
    ((b.deregisterFilter owner token filter).2 = true ∧
      ∃ r ∈ b.registrations, r.key = (owner, token) ∧ r.filter = filter) ∨
    b.deregisterFilter owner token filter = (b, false) ∧
      ∀ r ∈ b.registrations, ¬(r.key = (owner, token) ∧ r.filter = filter) := by
  simp only [deregisterFilter]
  split
  · rename_i found hfound
    have hmem := List.mem_of_find?_eq_some hfound
    have hkey : found.key = (owner, token) := by simpa using List.find?_some hfound
    split
    · rename_i hfilter
      exact .inl ⟨rfl, found, hmem, hkey, hfilter⟩
    · rename_i hother
      refine .inr ⟨rfl, fun r hr h => hother ?_⟩
      rw [← hk.eq_of_key hr hmem (h.1.trans hkey.symm), h.2]
  · rename_i hnone
    refine .inr ⟨rfl, fun r hr h => ?_⟩
    exact absurd h.1 (by simpa using List.find?_eq_none.1 hnone r hr)

/-- A call of an observer that has returned, with the services before and after. -/
structure Occasion where
  call : Observation
  moment : Moment
  before : Services
  dealings : Dealings
  result : Except GatewayError Unit
  after : Services

namespace Occasion

def events (o : Occasion) : List Event := eventsOf o.dealings.calls

structure Begins (st : Settings) (o : Occasion) (client : ClientId) (c : Channel) (token : String)
    (queue : QueueId) : Prop where
  registered : ∀ r, r ∈ o.after.broker.registrations ↔
    r = ⟨Observe.owner client, token, Topic.edgeFilter c, queue⟩ ∨
      r ∈ o.before.broker.registrations ∧ r.key ≠ (Observe.owner client, token)
  events : o.events = [Observe.event st o.moment .subscribe client c]

structure Ceases (st : Settings) (o : Occasion) (client : ClientId) (c : Channel) (token : String) :
    Prop where
  registered : ∀ r, r ∈ o.after.broker.registrations ↔ r ∈ o.before.broker.registrations ∧
    ¬(r.key = (Observe.owner client, token) ∧ r.filter = Topic.edgeFilter c)
  events :
    (∃ r ∈ o.before.broker.registrations,
      r.key = (Observe.owner client, token) ∧ r.filter = Topic.edgeFilter c) ∧
      o.events = [Observe.event st o.moment .unsubscribe client c] ∨
    (∀ r ∈ o.before.broker.registrations,
      ¬(r.key = (Observe.owner client, token) ∧ r.filter = Topic.edgeFilter c)) ∧
      o.events = [] ∧ o.after.broker = o.before.broker

structure Lawful (st : Settings) (o : Occasion) : Prop where
  failed : ∀ why, o.result = .error why → o.after.broker = o.before.broker ∧ o.events = []
  returned : o.result = .ok () → ∃ client c, o.call.IsBy o.dealings client ∧
    Topic.parseFilter o.call.topic = .ok c ∧ Allowed o.dealings client c.id o.call.action ∧
    match o.call with
    | .subscribe _ _ _ token queue => o.Begins st client c token queue
    | .unsubscribe _ _ _ token => o.Ceases st client c token

def Starts (token : String) (e : Event) (o : Occasion) : Prop :=
  o.call.token = token ∧ ∃ e' ∈ o.events, e'.operation = .subscribe ∧ e'.client = e.client ∧
    e'.channel = e.channel ∧ e'.subtopic = e.subtopic

def Changes (token : String) (client : ClientId) (o : Occasion) : Prop :=
  o.call.token = token ∧ ∃ e ∈ o.events, e.client = client

variable {st : Settings} {o : Occasion} {token : String} {client d : ClientId} {c : Channel}

theorem not_changes (h : o.events = []) : ¬o.Changes token client := by
  rintro ⟨-, e, he, -⟩
  rw [h] at he
  cases he

theorem changes_iff {operation : Operation}
    (h : o.events = [Observe.event st o.moment operation d c]) :
    o.Changes token client ↔ o.call.token = token ∧ d = client := by
  rw [Changes, h]
  simp [Observe.event, Event.onChannel]

def Makes (st : Settings) (client : ClientId) (token filter : String) (o : Occasion) : Prop :=
  o.call.token = token ∧ ∃ c, Topic.parseFilter o.call.topic = .ok c ∧
    Topic.edgeFilter c = filter ∧ o.events = [Observe.event st o.moment .subscribe client c]

theorem Lawful.mem_after (h : o.Lawful st) (hk : o.before.broker.Keyed) {r : Registration}
    (hr : r ∈ o.after.broker.registrations) (howner : r.owner = Observe.owner client) :
    o.Makes st client r.token r.filter ∨
      r ∈ o.before.broker.registrations ∧ ¬o.Changes r.token client := by
  cases hresult : o.result with
  | error why =>
    obtain ⟨hbroker, hevents⟩ := h.failed why hresult
    exact .inr ⟨hbroker ▸ hr, not_changes hevents⟩
  | ok =>
    obtain ⟨d, c, -, hplace, -, hdone⟩ := h.returned hresult
    have hkey : o.call.token = r.token ∧ d = client → r.key = (Observe.owner d, o.call.token) := by
      rintro ⟨htoken, rfl⟩
      rw [Registration.key, howner, htoken]
    cases hcall : o.call with
    | subscribe key channel subtopic token queue =>
      simp only [hcall] at hdone
      rcases (hdone.registered r).1 hr with rfl | ⟨hold, hother⟩
      · obtain rfl := Observe.owner_inj.1 howner
        exact .inl ⟨by rw [hcall]; rfl, c, hplace, rfl, hdone.events⟩
      · refine .inr ⟨hold, fun hchanges => hother ?_⟩
        rw [hkey ((changes_iff hdone.events).1 hchanges), hcall]
        rfl
    | unsubscribe key channel subtopic token =>
      simp only [hcall] at hdone
      obtain ⟨hold, hother⟩ := (hdone.registered r).1 hr
      rcases hdone.events with ⟨⟨held, hheld, hheldKey, hfilter⟩, hevents⟩ | ⟨-, hevents, -⟩
      · refine .inr ⟨hold, fun hchanges => hother ?_⟩
        have hrkey : r.key = (Observe.owner d, token) := by
          rw [hkey ((changes_iff hevents).1 hchanges), hcall]
          rfl
        exact ⟨hrkey, hk.eq_of_key hold hheld (hrkey.trans hheldKey.symm) ▸ hfilter⟩
      · exact .inr ⟨hold, not_changes hevents⟩

theorem Lawful.ended (h : o.Lawful st) {e : Event} (he : e ∈ o.events)
    (hop : e.operation = .unsubscribe) :
    ∃ client c, e = Observe.event st o.moment .unsubscribe client c ∧
      Topic.parseFilter o.call.topic = .ok c ∧ ∃ r ∈ o.before.broker.registrations,
        r.key = (Observe.owner client, o.call.token) ∧ r.filter = Topic.edgeFilter c := by
  cases hresult : o.result with
  | error why =>
    rw [(h.failed why hresult).2] at he
    cases he
  | ok =>
    obtain ⟨client, c, -, hplace, -, hdone⟩ := h.returned hresult
    cases hcall : o.call with
    | subscribe key channel subtopic token queue =>
      simp only [hcall] at hdone
      rw [hdone.events, List.mem_singleton] at he
      subst he
      cases hop
    | unsubscribe key channel subtopic token =>
      simp only [hcall] at hdone
      rcases hdone.events with ⟨hheld, hevents⟩ | ⟨-, hevents, -⟩
      · rw [hevents, List.mem_singleton] at he
        exact ⟨client, c, he, hcall ▸ hplace, hheld⟩
      · rw [hevents] at he
        cases he

end Occasion

/-- Calls of observers up to some moment, and the services then. Others come in between, and
register nothing in the name of an observer; registrations may be lost meanwhile. -/
inductive Observers (st : Settings) : List Occasion → Services → Prop
  | start {v : Services} (hk : v.broker.Keyed) (hnone : ∀ r ∈ v.broker.registrations,
      ∀ client, r.owner ≠ Observe.owner client) : Observers st [] v
  | elsewhere {os : List Occasion} {v w : Services} (h : Observers st os v) (hk : w.broker.Keyed)
      (hold : ∀ r ∈ w.broker.registrations, ∀ client, r.owner = Observe.owner client →
        r ∈ v.broker.registrations) : Observers st os w
  | call {os : List Occasion} {o : Occasion} (h : Observers st os o.before)
      (hr : (o.call.work st o.moment).Returns o.before o.dealings o.result o.after) :
      Observers st (os ++ [o]) o.after

namespace Inquiry
variable {key : String} {place : Except TopicError Channel} {action : Action} {asked d : Dealings}
variable {client : ClientId} {c : Channel}

theorem granted (h : Inquiry key place action asked (.ok (client, c))) :
    asked = [⟨.identify key, .ok client⟩, ⟨.authorize client c.id action, .ok ()⟩] ∧
      place = .ok c := by
  cases h with
  | allowed client hplace => exact ⟨rfl, hplace⟩

end Inquiry

namespace Observation.Ends
variable {e : Observation} {st : Settings} {m : Moment} {v w : Services} {d : Dealings}
variable {r : Except GatewayError Unit}

theorem lawful (h : e.Ends st m v d r w) (hk : v.broker.Keyed) :
    Occasion.Lawful st ⟨e, m, v, d, r, w⟩ := by
  cases h with
  | refused hinquiry hbroker =>
    exact ⟨fun _ _ => ⟨hbroker, hinquiry.silent⟩, by simp⟩
  | @done asked _ client c _ hinquiry hasked hbroker hevents =>
    obtain ⟨rfl, hplace⟩ := hinquiry.granted
    obtain ⟨more, rfl⟩ := hasked
    refine ⟨by simp, fun _ => ⟨client, c, rfl, hplace, by simp [Allowed], ?_⟩⟩
    cases e with
    | subscribe key channel subtopic token queue =>
      refine ⟨fun r => ?_, hevents⟩
      dsimp only
      rw [hbroker]
      exact Broker.mem_register
    | unsubscribe key channel subtopic token =>
      refine ⟨fun r => ?_, ?_⟩
      · dsimp only
        rw [hbroker, effect, Broker.mem_deregisterFilter_iff hk]
        simp [Registration.key, and_assoc]
      · rcases Broker.deregisterFilter_cases hk (Observe.owner client) token (Topic.edgeFilter c)
          with ⟨hremoved, hheld⟩ | ⟨hsame, hfree⟩
        · exact .inl ⟨hheld, hevents.trans (if_pos hremoved)⟩
        · have heffect : (unsubscribe key channel subtopic token).effect client c v.broker =
              (v.broker, false) := hsame
          rw [heffect] at hbroker hevents
          exact .inr ⟨hfree, hevents, hbroker⟩

end Observation.Ends

namespace Observers
variable {st : Settings} {os before after : List Occasion} {o : Occasion} {v : Services}

theorem keyed (h : Observers st os v) : v.broker.Keyed := by
  induction h with
  | start hk hnone => exact hk
  | elsewhere h hk hold ih => exact hk
  | call h hr ih => exact hr.keyed ih

theorem at_call (h : Observers st (before ++ o :: after) v) : Observers st before o.before ∧
    (o.call.work st o.moment).Returns o.before o.dealings o.result o.after := by
  generalize hos : before ++ o :: after = os at h
  induction h generalizing after with
  | start hk hnone => simp at hos
  | elsewhere h hk hold ih => exact ih hos
  | @call os o' h hr ih =>
    rcases List.eq_nil_or_concat after with rfl | ⟨after, o'', rfl⟩
    · obtain ⟨rfl, rfl⟩ := List.append_singleton_inj.1 hos
      exact ⟨h, hr⟩
    · rw [List.concat_eq_append, ← List.cons_append, ← List.append_assoc] at hos
      exact ih (List.append_singleton_inj.1 hos).1

theorem lawful (h : Observers st (before ++ o :: after) v) : o.Lawful st :=
  (Observation.ends h.at_call.2).lawful h.at_call.1.keyed

theorem backed (h : Observers st os v) {r : Registration} (hr : r ∈ v.broker.registrations)
    {client : ClientId} (howner : r.owner = Observe.owner client) :
    Lasts (Occasion.Makes st client r.token r.filter) (Occasion.Changes r.token client) os := by
  induction h with
  | start hk hnone => exact absurd howner (hnone r hr client)
  | elsewhere h hk hold ih => exact ih (hold r hr client howner)
  | @call os o h hreturns ih =>
    -- What is not from this call was there before it, and then the calls before it account for it.
    have hlawful : o.Lawful st := (Observation.ends hreturns).lawful h.keyed
    rw [lasts_concat]
    refine (hlawful.mem_after h.keyed hr howner).imp_right fun hkept => ?_
    exact ⟨ih hkept.1, hkept.2⟩

theorem begun (h : Observers st (before ++ o :: after) v) {e : Event} (he : e ∈ o.events)
    (hop : e.operation = .unsubscribe) :
    Lasts (Occasion.Starts o.call.token e) (Occasion.Changes o.call.token e.client) before := by
  obtain ⟨client, c, rfl, hplace, r, hr, hkey, hfilter⟩ := h.lawful.ended he hop
  obtain ⟨howner, htoken⟩ := Prod.mk.inj hkey
  obtain ⟨bs, s, more, rfl, ⟨hstoken, c', hplace', hfilter', hevents⟩, hmore⟩ :=
    h.at_call.1.backed hr howner
  obtain rfl : c' = c := (Topic.edgeFilter_inj hplace' hplace).1 (hfilter'.trans hfilter)
  have hstart : Observe.event st s.moment .subscribe client c' ∈ s.events := by
    rw [hevents]
    exact List.mem_singleton_self _
  refine ⟨bs, s, more, rfl, ⟨hstoken.trans htoken, _, hstart, rfl, rfl, rfl, rfl⟩, fun x hx => ?_⟩
  rw [← htoken]
  exact hmore x hx

/-- Each call does what it returns for and records what it did, every recorded end has its
beginning, and the next call returns, whatever it is told. -/
theorem events_match_registrations (h : Observers st os v) :
    (∀ o ∈ os, o.Lawful st) ∧
    (∀ before o after, os = before ++ o :: after → ∀ e ∈ o.events, e.operation = .unsubscribe →
      Lasts (Occasion.Starts o.call.token e) (Occasion.Changes o.call.token e.client) before) ∧
    ∀ (e : Observation) (m : Moment) told, ∃ d r w, Activity.Hears told d ∧
      Observers st (os ++ [⟨e, m, v, d, r, w⟩]) w := by
  refine ⟨fun o ho => ?_, ?_, fun e m told => ?_⟩
  · obtain ⟨before, after, rfl⟩ := List.append_of_mem ho
    exact h.lawful
  · rintro before o after rfl e he hop
    exact h.begun he hop
  · obtain ⟨d, r, w, hr, htold⟩ := Activity.exists_returns told (e.work st m) v
    exact ⟨d, r, w, htold, h.call (o := ⟨e, m, v, d, r, w⟩) hr⟩

theorem events_match_registrations_of_two_calls : ∃ (first second : Occasion) (v : Services),
    Observers {} [first, second] v ∧ second.events =
      [Observe.event {} ⟨0, 0⟩ .unsubscribe ⟨"A"⟩ ⟨⟨"c1", rfl⟩, "a"⟩] ∧
    (∀ o ∈ [first, second], o.Lawful {}) ∧
    Lasts (Occasion.Starts "t" (Observe.event {} ⟨0, 0⟩ .unsubscribe ⟨"A"⟩ ⟨⟨"c1", rfl⟩, "a"⟩))
      (Occasion.Changes "t" ⟨"A"⟩) [first] := by
  let c : Channel := ⟨⟨"c1", rfl⟩, "a"⟩
  have hc : Topic.parseFilter (Observe.topic "c1" "a") = .ok c := by decide
  let v : Services := { registrar := { store := ⟨[]⟩ }, policy := ⟨[]⟩ }
  let held : Registration := ⟨Observe.owner ⟨"A"⟩, "t", Topic.edgeFilter c, 0⟩
  let w : Services := { v with broker := ⟨[held]⟩ }
  have hregister : v.answer 0 (.register (Observe.owner ⟨"A"⟩) [("t", Topic.edgeFilter c)] 0) =
      (w, .answer ()) := rfl
  have hderegister : w.answer 0
      (.deregisterFilter (Observe.owner ⟨"A"⟩) "t" (Topic.edgeFilter c)) = (v, .answer true) := by
    simp [Services.answer, Broker.deregisterFilter, Broker.find?, Broker.erase, v, w, held]
  have hfirst : (Observe.subscribe {} ⟨0, 0⟩ "k" "c1" "a" "t" 0).Returns v
      [⟨.identify "k", .ok ⟨"A"⟩⟩, ⟨.authorize ⟨"A"⟩ c.id .subscribe, .ok ()⟩,
        ⟨.register (Observe.owner ⟨"A"⟩) [("t", Topic.edgeFilter c)] 0, ()⟩,
        ⟨.record (Observe.event {} ⟨0, 0⟩ .subscribe ⟨"A"⟩ c), .ok ()⟩] (.ok ()) w :=
    returns_andThen_iff.2 (.inr ⟨_, _, _, v, rfl, Observe.request_granted hc _ _ v,
      .call (.atOnce rfl hregister) (.call (w.answers_unchanged rfl _) (.done _ w))⟩)
  have hsecond : (Observe.unsubscribe {} ⟨0, 0⟩ "k" "c1" "a" "t").Returns w
      [⟨.identify "k", .ok ⟨"A"⟩⟩, ⟨.authorize ⟨"A"⟩ c.id .unsubscribe, .ok ()⟩,
        ⟨.deregisterFilter (Observe.owner ⟨"A"⟩) "t" (Topic.edgeFilter c), true⟩,
        ⟨.record (Observe.event {} ⟨0, 0⟩ .unsubscribe ⟨"A"⟩ c), .ok ()⟩] (.ok ()) v :=
    returns_andThen_iff.2 (.inr ⟨_, _, _, w, rfl, Observe.request_granted hc _ _ w,
      .call (.atOnce rfl hderegister) (.call (v.answers_unchanged rfl _) (.done _ v))⟩)
  have hstart : Observers {} [] v := .start List.nodup_nil (by simp [v])
  have h := (hstart.call (o := ⟨.subscribe "k" "c1" "a" "t" 0, ⟨0, 0⟩, v, _, _, w⟩) hfirst).call
    (o := ⟨.unsubscribe "k" "c1" "a" "t", ⟨0, 0⟩, w, _, _, v⟩) hsecond
  obtain ⟨hlawful, hbegun, -⟩ := events_match_registrations h
  exact ⟨_, _, v, h, rfl, hlawful, hbegun [_] _ [] rfl _ (List.mem_singleton_self _) rfl⟩

end Observers

end DeviceGateway
