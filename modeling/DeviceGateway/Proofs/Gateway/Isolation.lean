import DeviceGateway.Proofs.Gateway.Running
import Mathlib.Data.List.Induction

/-!
# Deliveries stay within their channel and keep their order

Whatever goes on in a gateway, a line is only sent deliveries that its client may have, once it was
told that it is connected. They come in the order in which fan-outs put them into the queue of the
line, and a fan-out puts there at most one for each filter of the line.
-/

namespace DeviceGateway

variable {ι κ : Type} [DecidableEq ι]

def Move.frame? (k : ι) : Move ι → Option Packet
  | line j (.ask (.send p)) => if j = k then some p else none
  | deliver j n => if j = k then some (.deliver n.topic n.message.payload) else none
  | _ => none

def Move.delivery? (k : ι) (m : Move ι) : Option (String × Bytes) :=
  match m.frame? k with
  | some (.deliver topic payload) => some (topic, payload)
  | _ => none

def Move.enqueued? (queue : QueueId) : Move ι → Option Notification
  | offer q n true => if q = queue then some n else none
  | _ => none

def deliveries (k : ι) (tr : Trace ι κ) : List (String × Bytes) :=
  tr.filterMap fun e => e.1.delivery? k

omit [DecidableEq ι] in
def enqueued (queue : QueueId) (tr : Trace ι κ) : List Notification :=
  tr.filterMap fun e => e.1.enqueued? queue

abbrev Notification.content (n : Notification) : String × Bytes := (n.topic, n.message.payload)

namespace RunningGateway
variable [DecidableEq κ] {g : Wiring ι} {w₀ w v : RunningGateway ι κ} {m : Move ι} {tr : Trace ι κ}
  {k : ι}

theorem Run.concat_inv {e : Move ι × RunningGateway ι κ} (hr : Run g w₀ (tr ++ [e]) w) :
    ∃ u, Run g w₀ tr u ∧ Step g u e.1 e.2 ∧ e.2 = w := by
  generalize htr : tr ++ [e] = tr' at hr
  cases hr with
  | start => simp at htr
  | @step tr₁ u v m hu hs =>
    obtain ⟨rfl, he⟩ := List.append_inj' htr rfl
    cases he
    exact ⟨u, hu, hs, rfl⟩

theorem Run.split {a b : Trace ι κ} (hr : Run g w₀ (a ++ b) w) :
    ∃ u, Run g w₀ a u ∧ Run g u b w := by
  induction b using List.reverseRecOn generalizing w with
  | nil => exact ⟨w, by simpa using hr, .start⟩
  | append_singleton b e ih =>
    rw [← List.append_assoc] at hr
    obtain ⟨u, hu, hs, rfl⟩ := hr.concat_inv
    obtain ⟨x, ha, hb⟩ := ih hu
    exact ⟨x, ha, hb.step hs⟩

def last (w₀ : RunningGateway ι κ) (tr : Trace ι κ) : RunningGateway ι κ := (tr.getLast?).elim w₀
    (·.2)

theorem Run.last_eq (hr : Run g w₀ tr w) : last w₀ tr = w := by
  cases hr with
  | start => rfl
  | step hr hs => simp [last]

theorem Run.step_at {before rest : Trace ι κ} {e : Move ι × RunningGateway ι κ}
    (hr : Run g w₀ (before ++ e :: rest) w) :
    ∃ u, Run g w₀ before u ∧ Step g u e.1 e.2 ∧ Run g e.2 rest w := by
  have happend : before ++ e :: rest = before ++ [e] ++ rest := by simp
  rw [happend] at hr
  obtain ⟨v, hv, hrest⟩ := hr.split
  obtain ⟨u, hu, hs, rfl⟩ := hv.concat_inv
  exact ⟨u, hu, hs, hrest⟩

theorem Sound.meant_of_frame {A : ι → List Act} (h : Sound g A w) (hs : Step g w m v)
    {topic : String} {payload : Bytes} (hm : m.frame? k = some (.deliver topic payload)) :
    ∃ n, m = .deliver k n ∧ n.content = (topic, payload) ∧ Meant (heard (A k)) n := by
  cases hs with
  | @line j act t l hl =>
    cases act with
    | ask c =>
      cases c with
      | send p =>
        by_cases hjk : j = k
        · subst hjk
          simp only [Move.frame?, if_true, Option.some.injEq] at hm
          exact absurd hm ((h.lines j).sends hl topic payload)
        · simp [Move.frame?, hjk] at hm
      | _ => cases hm
    | _ => cases hm
  | @deliver j hw q q' n hq ht =>
    by_cases hjk : j = k
    · subst hjk
      simp only [Move.frame?, if_true, Option.some.injEq, Packet.deliver.injEq] at hm
      refine ⟨n, rfl, by simp [hm], h.waiting j q hq n ?_⟩
      rw [(Queue.items_of_take ht).1]
      exact List.mem_cons_self
    · simp [Move.frame?, hjk] at hm
  | _ => cases hm

theorem Sound.delivery_of_line {A : ι → List Act} (h : Sound g A w) {j : ι} {act : Act}
    (hs : Step g w (.line j act) v) : Move.delivery? k (.line j act) = none := by
  simp only [Move.delivery?]
  split
  · rename_i topic payload hm
    obtain ⟨n, heq, -⟩ := h.meant_of_frame hs hm
    cases heq
  · rfl

omit [DecidableEq ι] [DecidableEq κ] in
theorem Move.enqueued?_offer (queue q : QueueId) (n : Notification) (taken : Bool) :
    (Move.offer q n taken : Move ι).enqueued? queue =
      if taken = true ∧ q = queue then some n else none := by
  cases taken <;> simp [Move.enqueued?]

inductive Moved (s t : Option Queue) : Option (String × Bytes) → Option Notification → Prop
  | kept (h : t = s) : Moved s t none none
  | delivered {q q' : Queue} {n : Notification} (hs : s = some q) (ht : t = some q')
      (hitems : q.items = n :: q'.items) (hopen : q'.isOpen = q.isOpen) :
      Moved s t (some n.content) none
  | closed {q : Queue} (hs : s = some q) (ht : t = some q.close) : Moved s t none none
  | added {q q' : Queue} {n : Notification} (hs : s = some q) (ht : t = some q')
      (hopen : q.isOpen = true) (hitems : q'.items = q.items ++ [n]) : Moved s t none (some n)

theorem Sound.moved {A : ι → List Act} (h : Sound g A w) (hs : Step g w m v) (k : ι) :
    Moved w.services.queues[g.queue k]? v.services.queues[g.queue k]? (m.delivery? k)
      (m.enqueued? (g.queue k)) := by
  have hstep := hs
  cases hs with
  | line j hl =>
    rw [h.delivery_of_line hstep]
    exact .kept (hl.queues ▸ rfl)
  | @deliver j hw q q' n hq ht =>
    by_cases hjk : j = k
    · subst hjk
      obtain ⟨hitems, hopen⟩ := Queue.items_of_take ht
      simp only [Move.delivery?, Move.frame?, if_true, setWriter_services, getElem?_setQueue_self hq]
      exact .delivered hq rfl hitems hopen
    · simp only [Move.delivery?, Move.frame?, if_neg hjk, setWriter_services,
        getElem?_setQueue_of_ne hjk]
      exact .kept rfl
  | @hush j q hq =>
    by_cases hjk : j = k
    · subst hjk
      rw [getElem?_setQueue_self hq]
      exact .closed hq rfl
    · rw [getElem?_setQueue_of_ne hjk]
      exact .kept rfl
  | answer j hj ht => exact .kept (ht.queues ▸ rfl)
  | @offer d r rest gone hpass =>
    rw [Move.enqueued?_offer]
    rcases w.offered_cases d gone r with
      ⟨hone, -, q, q', hq, hopen, hitems, -, hset⟩ | ⟨hzero, hsame⟩
    · rw [hone, hset]
      by_cases hrk : r.queue = g.queue k
      · rw [if_pos ⟨rfl, hrk⟩, ← hrk]
        obtain ⟨hlt, -⟩ := List.getElem?_eq_some_iff.1 hq
        exact .added hq (List.getElem?_set_self hlt) hopen hitems
      · rw [if_neg fun hc => hrk hc.2]
        exact .kept (List.getElem?_set_ne hrk)
    · rw [hzero, hsame]
      exact .kept rfl
  | elsewhere hbus hbroker hsettings hqueues => exact .kept (hqueues k)
  | _ => exact .kept rfl

def waitingIn (s : Option Queue) : List Notification := s.elim [] (·.items)

/-- All that was put into a queue was delivered, or waits, or was lost when the queue was closed. -/
def InOrder (s : Option Queue) (put : List Notification) (told : List (String × Bytes)) : Prop :=
  ∃ lost, put.map (·.content) = told ++ (waitingIn s).map (·.content) ++ lost ∧
    ∀ q, s = some q → q.isOpen = true → lost = []

theorem InOrder.moved {s t : Option Queue} {put : List Notification} {told : List (String × Bytes)}
    {d : Option (String × Bytes)} {n : Option Notification} (h : InOrder s put told)
    (hm : Moved s t d n) : InOrder t (put ++ n.toList) (told ++ d.toList) := by
  obtain ⟨lost, hput, hlost⟩ := h
  cases hm with
  | kept ht =>
    rw [ht]
    exact ⟨lost, by simpa using hput, hlost⟩
  | delivered hs ht hitems hopen =>
    subst hs ht
    refine ⟨lost, ?_, fun q hq hopen' => ?_⟩
    · simpa [waitingIn, hitems] using hput
    · cases hq
      exact hlost _ rfl (hopen ▸ hopen')
  | @closed q hs ht =>
    subst hs ht
    -- All that waited is lost, and nothing is put into the queue any more.
    refine ⟨q.items.map (·.content) ++ lost, ?_, fun q' hq hopen => ?_⟩
    · simpa [waitingIn, Queue.close] using hput
    · cases hq
      cases hopen
  | added hs ht hopen hitems =>
    subst hs ht
    have hnil := hlost _ rfl hopen
    refine ⟨[], ?_, fun _ _ _ => rfl⟩
    rw [List.map_append, hput, hnil]
    simp [waitingIn, hitems]

omit [DecidableEq κ] in
theorem deliveries_concat (k : ι) (tr : Trace ι κ) (m : Move ι) (v : RunningGateway ι κ) :
    deliveries k (tr ++ [(m, v)]) = deliveries k tr ++ (m.delivery? k).toList :=
  filterMap_concat _ tr (m, v)

omit [DecidableEq ι] [DecidableEq κ] in
theorem enqueued_concat (queue : QueueId) (tr : Trace ι κ) (m : Move ι) (v : RunningGateway ι κ) :
    enqueued queue (tr ++ [(m, v)]) = enqueued queue tr ++ (m.enqueued? queue).toList :=
  filterMap_concat _ tr (m, v)

theorem Run.inOrder (hr : Run g w₀ tr w) (hb : w₀.Begins g) (k : ι) :
    InOrder w.services.queues[g.queue k]? (enqueued (g.queue k) tr) (deliveries k tr) := by
  induction hr with
  | start =>
    refine ⟨[], ?_, fun _ _ _ => rfl⟩
    cases hq : w₀.services.queues[g.queue k]? with
    | none => rfl
    | some q => simp [enqueued, deliveries, waitingIn, hb.waiting k q hq]
  | step hr hs ih =>
    rw [enqueued_concat, deliveries_concat]
    exact ih.moved ((hr.sound hb).moved hs k)

def due (queue : QueueId) : Relay → List Registration
  | .passing d left _ => left.filter fun r =>
      r.queue = queue ∧ Subject.filterMatches r.filter (Forwarder.passed d).1
  | _ => []

theorem Step.due_le (hs : Step g w m v) (hm : ∀ d, m ≠ .publish d) (queue : QueueId) :
    (m.enqueued? queue).toList.length + (due queue v.relay).length ≤
      (due queue w.relay).length := by
  cases hs with
  | take hwait hd => simp [Move.enqueued?, due]
  | publish hhold hleft => exact absurd rfl (hm _)
  | @offer d r rest gone hpass =>
    have hrest : (due queue (.passing d (r :: rest) gone)).length =
        (if r.queue = queue ∧ Subject.filterMatches r.filter (Forwarder.passed d).1 = true then 1
          else 0) + (due queue (.passing d rest gone)).length := by
      simp only [due, List.filter_cons, decide_eq_true_eq]
      split
      · rw [List.length_cons, Nat.add_comm]
      · rw [Nat.zero_add]
    have hsame : due queue (.passing d rest (w.offered d gone r).gone) =
        due queue (.passing d rest gone) := rfl
    rw [Move.enqueued?_offer, hpass, hrest, hsame]
    apply Nat.add_le_add_right
    rcases w.offered_cases d gone r with ⟨hone, hmatch, -⟩ | ⟨hzero, -⟩
    · rw [hone]
      by_cases hrq : r.queue = queue
      · simp [hrq, hmatch]
      · simp [hrq]
    · simp [hzero]
  | finish hpass => simp [Move.enqueued?, due]
  | _ => simp [Move.enqueued?, setQueue, setWriter]

theorem Run.due_le {more : Trace ι κ} (hr : Run g v more w) (hm : ∀ e ∈ more, ∀ d, e.1 ≠ .publish d)
    (queue : QueueId) :
    (enqueued queue more).length + (due queue w.relay).length ≤ (due queue v.relay).length := by
  induction hr with
  | start => simp [enqueued]
  | @step tr w u m hr hs ih =>
    have hbefore := ih fun e he => hm e (List.mem_append_left _ he)
    have hstep := hs.due_le (hm (m, u) (by simp)) queue
    rw [enqueued_concat, List.length_append]
    omega

omit [DecidableEq ι] [DecidableEq κ] in
theorem Sound.length_due {A : ι → List Act} (h : Sound g A w) {d : Delivery}
    {left : List Registration} (hl : left.Perm w.services.broker.registrations) (k : ι) :
    (due (g.queue k) (.passing d left [])).length =
      ((w.services.broker.filtersOf (g.owner k)).filter fun f =>
        Subject.filterMatches f (Forwarder.passed d).1).length := by
  -- Names and queues of lines differ, so the owner of a registration tells its queue and back.
  have howner : ∀ r ∈ w.services.broker.registrations,
      (r.queue = g.queue k ↔ r.owner = g.owner k) ∧
        (r.owner = g.owner k → r.token = r.filter) := by
    intro r hr
    rcases h.registered r hr with ⟨⟨client, hclient⟩, hforeign⟩ | ⟨j, hj⟩
    · have hne : r.owner ≠ g.owner k := hclient ▸ g.owner_ne_observe k client
      exact ⟨⟨fun hq => absurd hq (hforeign k), fun ho => absurd ho hne⟩, fun ho => absurd ho hne⟩
    · refine ⟨?_, fun _ => hj.stands.token_eq⟩
      rw [hj.stands.queue, hj.stands.owner]
      constructor
      · intro hjk
        rw [g.queue_injective hjk]
      · intro hjk
        rw [g.owner_inj hjk]
  rw [h.keyed.filtersOf fun r hr ho => (howner r hr).2 ho, List.filter_map, List.length_map,
    List.filter_filter, due, (hl.filter _).length_eq]
  congr 1
  refine List.filter_congr fun r hr => ?_
  rw [Bool.eq_iff_iff]
  simp only [decide_eq_true_eq, Bool.and_eq_true, Function.comp_apply, (howner r hr).1]
  exact and_comm

theorem Run.length_enqueued_le (hr : Run g w₀ tr w) (hb : w₀.Begins g)
    {before more rest : Trace ι κ}
    {d : Delivery} (htr : tr = before ++ (.publish d, v) :: (more ++ rest))
    (hmore : ∀ e ∈ more, ∀ d, e.1 ≠ .publish d) (k : ι) :
    (enqueued (g.queue k) more).length ≤
      (((last w₀ before).services.broker.filtersOf (g.owner k)).filter fun f =>
        Subject.filterMatches f (Forwarder.passed d).1).length := by
  subst htr
  obtain ⟨u, hu, hs, hrest⟩ := hr.step_at
  obtain ⟨x, hx, -⟩ := hrest.split
  have hle := hx.due_le hmore (g.queue k)
  rw [hu.last_eq]
  cases hs with
  | publish hhold hleft =>
    have hlength := (hu.sound hb).length_due (d := d) hleft k
    simp only at hle hlength
    omega

/-- A delivery to a line comes after the line was told that it is connected, and is about a channel
on which the policy let its client subscribe. The deliveries of a line come in the order in which
fan-outs put them into its queue, and a fan-out puts there at most one for each filter of the line
that matches. -/
theorem deliveries_isolated (hb : w₀.Begins g) (hr : Run g w₀ tr w) (k : ι) :
    (∀ before rest m v topic payload, tr = before ++ (m, v) :: rest →
      m.frame? k = some (.deliver topic payload) →
        Welcomed (heard (acts k before)) ∧ ∃ c client,
          (Subject.levels topic)[1]? = some c.text.toList ∧
          Identified (heard (acts k before)) client ∧
          Allowed (heard (acts k before)) client c .subscribe) ∧
    deliveries k tr <+: (enqueued (g.queue k) tr).map (·.content) ∧
    ∀ before d v more rest, tr = before ++ (.publish d, v) :: (more ++ rest) →
      (∀ e ∈ more, ∀ d, e.1 ≠ .publish d) →
        (enqueued (g.queue k) more).length ≤
          (((last w₀ before).services.broker.filtersOf (g.owner k)).filter fun f =>
            Subject.filterMatches f (Forwarder.passed d).1).length := by
  refine ⟨?_, ?_, fun before d v more rest htr hmore => hr.length_enqueued_le hb htr hmore k⟩
  · intro before rest m v topic payload htr hm
    subst htr
    obtain ⟨u, hu, hs, -⟩ := hr.step_at
    obtain ⟨n, -, hcontent, hmeant⟩ := (hu.sound hb).meant_of_frame hs hm
    obtain ⟨htopic, -⟩ := Prod.mk.inj hcontent
    rwa [Meant, htopic] at hmeant
  · obtain ⟨lost, hput, -⟩ := hr.inOrder hb k
    rw [hput, List.append_assoc]
    exact List.prefix_append _ _

theorem Run.relays (hr : Run g w₀ tr w) (hrelay : w.relay = .waiting) {b : Bus} {d : Delivery}
    (hd : w.services.bus.receive g.inbox = (b, .delivery d)) {r : Registration}
    (hreg : w.services.broker.registrations = [r]) (hqueue : r.queue = g.queue k)
    (hmatch : Subject.filterMatches r.filter (Forwarder.passed d).1 = true) {q : Queue}
    (hq : w.services.queues[g.queue k]? = some q) (hopen : q.isOpen = true) (hitems : q.items = [])
    (hroom : 0 < q.capacity) (hw : (w.lines k).writer = .idle) :
    ∃ more v, Run g w₀ (tr ++ more) v ∧
      deliveries k more = [((Forwarder.passed d).1, (Forwarder.passed d).2.payload)] := by
  have htaken := hr.step (.take hrelay hd)
  have hpublished := htaken.step (.publish rfl (.refl _))
  simp only [hreg] at hpublished
  have hoffered := hpublished.step (.offer rfl)
  let n : Notification := ⟨(Forwarder.passed d).1, r.token, (Forwarder.passed d).2⟩
  have hput : (q.offer n).1.items = [n] := by
    rw [Queue.offer_items, if_pos ⟨hopen, by simpa [hitems] using hroom⟩, hitems]
    rfl
  obtain ⟨q', hq'⟩ : ∃ q', (q.offer n).1.take = some (n, q') := by
    simp [Queue.take, hput]
  have hget := Broker.getElem?_offer_queues (Forwarder.passed d).1 (Forwarder.passed d).2
    { queues := w.services.queues } r (g.queue k)
  rw [hq, Broker.notifications_singleton, if_pos ⟨hqueue, hmatch⟩] at hget
  have hdelivered := hoffered.step (.deliver k (by exact hw) (by exact hget) hq')
  refine ⟨_, _, by simpa only [List.append_assoc] using hdelivered, ?_⟩
  simp [deliveries, Move.delivery?, Move.frame?, n]

theorem deliveries_isolated_of_single : ∃ (w : RunningGateway Unit Empty) (tr : Trace Unit Empty),
    single.Begins singleWiring ∧ Run singleWiring single tr w ∧
    deliveries () tr = [("channels/c/messages/x", [1])] ∧
    (∀ before rest m v topic payload, tr = before ++ (m, v) :: rest →
      m.frame? () = some (.deliver topic payload) →
        Welcomed (heard (acts () before)) ∧ ∃ c client,
          (Subject.levels topic)[1]? = some c.text.toList ∧
          Identified (heard (acts () before)) client ∧
          Allowed (heard (acts () before)) client c .subscribe) ∧
    deliveries () tr <+: (enqueued (singleWiring.queue ()) tr).map (·.content) := by
  have hframe : Packet.ofFrame? (Packet.subscribe ["channels/c/messages/x"]).frame =
      some (.subscribe ["channels/c/messages/x"]) := Packet.ofFrame?_frame _
  let c : Channel := ⟨⟨"c", by decide⟩, "x"⟩
  let d : Delivery := ⟨"mqtt.x", .to c ⟨"b"⟩ .mqtt [1] ⟨0, 0⟩⟩
  obtain ⟨tr, hr, htr⟩ := run_single
  have hstart : Line.Path 0 single.services { serving := .reading singleSession, writer := .idle } []
      single.services { serving := .reading singleSession, writer := .idle } := .start
  obtain ⟨as, hpath⟩ := hstart.subscribes rfl rfl rfl (rfl : singleSession.connected? = some ⟨"a"⟩)
    hframe (by decide : Topic.parseFilter "channels/c/messages/x" = .ok c) ⟨0, 0⟩
  obtain ⟨more, hsubscribed, hmore⟩ := hr.path (k := ()) hpath
  rw [Function.update_eq_const_of_subsingleton] at hsubscribed
  have hempty : enqueued (singleWiring.queue ()) (tr ++ more) = [] := by
    refine List.filterMap_eq_nil_iff.2 fun e he => ?_
    have hline : ∃ act, e.1 = .line () act := by
      rcases List.mem_append.1 he with he | he
      · exact htr e he
      · exact hmore e he
    obtain ⟨act, hact⟩ := hline
    rw [hact]
    rfl
  have hquiet : deliveries () (tr ++ more) = [] := by
    obtain ⟨lost, hput, -⟩ := hsubscribed.inOrder begins_single ()
    rw [hempty, List.map_nil, List.append_assoc] at hput
    exact (List.append_eq_nil_iff.1 hput.symm).1
  have horderly : single.services.bus.Orderly :=
    Bus.Uses.orderly (.single (.enroll "mqtt.>")) Bus.orderly_empty
  have hwaiting := Bus.post_waiting horderly (List.mem_singleton_self 0) rfl rfl
    (by decide : Subject.patternMatches "mqtt.>" d.subject = true)
  have hposted := hsubscribed.step (.elsewhere
    (t := { single.services with
      broker := single.services.broker.registerAll singleSession.owner
        [(Topic.edgeFilter c, Topic.edgeFilter c)] 0
      bus := single.services.bus.post d }) (.single (.post d)) rfl rfl fun _ => rfl)
  have hreceive := Bus.receive_of_waiting hwaiting rfl
  obtain ⟨rest, v, hrun, hdelivered⟩ := hposted.relays (k := ()) rfl hreceive rfl rfl (by decide) rfl
    rfl rfl (by decide) rfl
  obtain ⟨hallowed, hordered, -⟩ := deliveries_isolated begins_single hrun ()
  refine ⟨_, _, begins_single, hrun, ?_, hallowed, hordered⟩
  rw [deliveries, List.filterMap_append, List.filterMap_append]
  change deliveries () (tr ++ more) ++ _ ++ deliveries () rest = _
  have htopic : (Forwarder.passed d).1 = "channels/c/messages/x" := by decide
  rw [hquiet, hdelivered, htopic]
  rfl

end RunningGateway

end DeviceGateway
