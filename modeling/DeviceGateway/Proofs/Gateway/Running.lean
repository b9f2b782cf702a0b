import DeviceGateway.Observe
import DeviceGateway.Proofs.Session.Holding
import DeviceGateway.Proofs.Session.Path
import DeviceGateway.Proofs.Wire.RoundTrip
import Mathlib.Logic.Function.Basic

/-!
# A gateway with all that goes on in it

Any number of lines and observations share the services of a gateway, and one forwarder passes on
what is on its bus. All of them take their steps in any order; others may publish whatever they like
on the bus. A fan-out offers to one queue after the other, and what was registered when it began
decides to which, however the registrations change meanwhile.
-/

namespace DeviceGateway

inductive Observe.Begun (foreign : QueueId → Prop) (st : Settings) :
    Work Unit (Except GatewayError Unit) → Prop
  | subscribe (m : Moment) (key channel subtopic token : String) {queue : QueueId}
      (hq : foreign queue) :
      Begun foreign st (Observe.subscribe st m key channel subtopic token queue)
  | unsubscribe (m : Moment) (key channel subtopic token : String) :
      Begun foreign st (Observe.unsubscribe st m key channel subtopic token)

def Observe.Conduct (foreign : QueueId → Prop) (c : Call) : Prop :=
  ∀ o entries queue, c = .register o entries queue →
    (∃ client, o = Observe.owner client) ∧ foreign queue

namespace Observe
variable {foreign : QueueId → Prop} {h : Dealings}

theorem request_obeys (key channel subtopic : String) (action : Action) :
    (request key channel subtopic action).Obeys (fun _ _ => Conduct foreign) (fun _ _ => True)
      h := by
  refine ⟨nofun, fun r => ?_⟩
  cases r with
  | error e => trivial
  | ok client =>
    simp only
    split
    · trivial
    · refine Activity.obeys_andThen.2 ⟨nofun, fun r => ?_⟩
      cases r with
      | error e => trivial
      | ok u => trivial

theorem Begun.obeys {st : Settings} {work : Work Unit (Except GatewayError Unit)}
    (hb : Begun foreign st work) :
    work.Obeys (fun _ _ => Conduct foreign) (fun _ _ => True) h := by
  cases hb with
  | subscribe m key channel subtopic token hq =>
    refine Activity.obeys_andThen.2 ((request_obeys key channel subtopic .subscribe).imp ?_)
    rintro h' - (e | ⟨client, c⟩) -
    · trivial
    · refine ⟨fun o entries queue he => ?_, fun _ => ⟨nofun, fun _ => trivial⟩⟩
      cases he
      exact ⟨⟨client, rfl⟩, hq⟩
  | unsubscribe m key channel subtopic token =>
    refine Activity.obeys_andThen.2 ((request_obeys key channel subtopic .unsubscribe).imp ?_)
    rintro h' - (e | ⟨client, c⟩) -
    · trivial
    · refine ⟨nofun, fun removed => ?_⟩
      cases removed with
      | true => exact ⟨nofun, fun _ => trivial⟩
      | false => trivial

end Observe

/-- What is fixed of a gateway: the names and queues of its lines, all different, and where its
forwarder is subscribed. -/
structure Wiring (ι : Type) where
  name : ι → String
  queue : ι → QueueId
  inbox : SubscriptionId
  name_injective : name.Injective
  queue_injective : queue.Injective

namespace Wiring
variable {ι : Type} (g : Wiring ι)

def owner (k : ι) : String := "session:" ++ g.name k

def Foreign (queue : QueueId) : Prop := ∀ k, queue ≠ g.queue k

theorem owner_inj {j k : ι} (h : g.owner j = g.owner k) : j = k := by
  have hl := congrArg String.toList h
  simp only [owner, String.toList_append] at hl
  exact g.name_injective (String.toList_inj.1 (List.append_cancel_left hl))

theorem owner_ne_observe (k : ι) (client : ClientId) : Observe.owner client ≠ g.owner k := by
  intro h
  have hl := congrArg String.toList h
  simp [owner, Observe.owner, String.toList_append] at hl

end Wiring

/-- The forwarder between two deliveries, with one in hand, or in the middle of a fan-out. -/
inductive Relay
  | waiting
  | holding (d : Delivery)
  | passing (d : Delivery) (left : List Registration) (gone : List (String × String))

def Relay.left : Relay → List Registration
  | waiting | holding _ => []
  | passing _ left _ => left

structure RunningGateway (ι κ : Type) where
  services : Services
  lines : ι → Line
  watches : κ → Work Unit (Except GatewayError Unit)
  relay : Relay := .waiting

inductive Move (ι : Type)
  | line (k : ι) (act : Act)
  | deliver (k : ι) (n : Notification)
  | sent (k : ι)
  | hush (k : ι)
  | observe
  | take
  | publish (d : Delivery)
  | offer (queue : QueueId) (n : Notification) (taken : Bool)
  | finish
  | elsewhere

abbrev Trace (ι κ : Type) := List (Move ι × RunningGateway ι κ)

namespace RunningGateway
variable {ι κ : Type}

structure Begins (g : Wiring ι) (w : RunningGateway ι κ) : Prop where
  lines : ∀ k, ∃ protocol, w.lines k = { serving := .opening (.start (g.name k) protocol) }
  waiting : ∀ k q, w.services.queues[g.queue k]? = some q → q.items = []
  registrations : w.services.broker.registrations = []
  watches : ∀ j, ∃ r, w.watches j = .done r
  relay : w.relay = .waiting

def setQueue (w : RunningGateway ι κ) (queue : QueueId) (q : Queue) : RunningGateway ι κ :=
  { w with services := { w.services with queues := w.services.queues.set queue q } }

def setWriter [DecidableEq ι] (w : RunningGateway ι κ) (k : ι) (writer : Writer) :
    RunningGateway ι κ :=
  { w with lines := Function.update w.lines k { w.lines k with writer := writer } }

@[simp] theorem setQueue_lines (w : RunningGateway ι κ) (queue : QueueId) (q : Queue) :
    (w.setQueue queue q).lines = w.lines := rfl

@[simp] theorem setWriter_services [DecidableEq ι] (w : RunningGateway ι κ) (k : ι)
    (writer : Writer) :
    (w.setWriter k writer).services = w.services := rfl

@[simp] theorem setWriter_lines_setQueue [DecidableEq ι] (w : RunningGateway ι κ) (queue : QueueId)
    (q : Queue)
    (k : ι) (writer : Writer) :
    ((w.setQueue queue q).setWriter k writer).lines = (w.setWriter k writer).lines := rfl

theorem getElem?_setQueue_self {w : RunningGateway ι κ} {queue : QueueId} {q : Queue}
    (hq : w.services.queues[queue]? = some q) (q' : Queue) :
    (w.setQueue queue q').services.queues[queue]? = some q' := by
  obtain ⟨hlt, -⟩ := List.getElem?_eq_some_iff.1 hq
  exact List.getElem?_set_self hlt

theorem getElem?_setQueue_of_ne {g : Wiring ι} {j k : ι} (hjk : j ≠ k) (w : RunningGateway ι κ)
    (q : Queue) :
    (w.setQueue (g.queue j) q).services.queues[g.queue k]? = w.services.queues[g.queue k]? :=
  List.getElem?_set_ne fun h => hjk (g.queue_injective h)

def offered (w : RunningGateway ι κ) (d : Delivery) (gone : List (String × String))
    (r : Registration) :
    Broker.FanOut :=
  .offer (Forwarder.passed d).1 (Forwarder.passed d).2
    { queues := w.services.queues, gone := gone } r

theorem offered_cases (w : RunningGateway ι κ) (d : Delivery) (gone : List (String × String))
    (r : Registration) :
    ((w.offered d gone r).delivered = 1 ∧
      Subject.filterMatches r.filter (Forwarder.passed d).1 = true ∧
      ∃ q q', w.services.queues[r.queue]? = some q ∧ q.isOpen = true ∧
        q'.items = q.items ++ [⟨(Forwarder.passed d).1, r.token, (Forwarder.passed d).2⟩] ∧
        q'.isOpen = true ∧ (w.offered d gone r).queues = w.services.queues.set r.queue q') ∨
    (w.offered d gone r).delivered = 0 ∧ (w.offered d gone r).queues = w.services.queues :=
  Broker.offer_cases _ _ _ r

inductive Step [DecidableEq ι] [DecidableEq κ] (g : Wiring ι) (w : RunningGateway ι κ) :
    Move ι → RunningGateway ι κ → Prop
  | line (k : ι) {act : Act} {t : Services} {l : Line}
      (hl : Line.Step (g.queue k) w.services (w.lines k) act t l) :
      Step g w (.line k act) { w with services := t, lines := Function.update w.lines k l }
  | deliver (k : ι) (hw : (w.lines k).writer = .idle) {q q' : Queue} {n : Notification}
      (hq : w.services.queues[g.queue k]? = some q) (ht : q.take = some (n, q')) :
      Step g w (.deliver k n) ((w.setQueue (g.queue k) q').setWriter k .sending)
  | sent (k : ι) (hw : (w.lines k).writer = .sending) : Step g w (.sent k) (w.setWriter k .idle)
  | hush (k : ι) {q : Queue} (hq : w.services.queues[g.queue k]? = some q) :
      Step g w (.hush k) (w.setQueue (g.queue k) q.close)
  | observe (j : κ) {work : Work Unit (Except GatewayError Unit)}
      (hb : Observe.Begun g.Foreign w.services.settings work) :
      Step g w .observe { w with watches := Function.update w.watches j work }
  | answer (j : κ) {c : Call} {f : c.Reply → Work Unit (Except GatewayError Unit)}
      (hj : w.watches j = .call () c f) {r : c.Reply} {t : Services}
      (ht : w.services.Answers c r t) :
      Step g w .observe { w with services := t, watches := Function.update w.watches j (f r) }
  | take {d : Delivery} {b : Bus} (hr : w.relay = .waiting)
      (hd : w.services.bus.receive g.inbox = (b, .delivery d)) :
      Step g w .take { w with services := { w.services with bus := b }, relay := .holding d }
  | publish {d : Delivery} {left : List Registration} (hr : w.relay = .holding d)
      (hl : left.Perm w.services.broker.registrations) :
      Step g w (.publish d) { w with relay := .passing d left [] }
  | offer {d : Delivery} {r : Registration} {rest : List Registration}
      {gone : List (String × String)} (hr : w.relay = .passing d (r :: rest) gone) :
      Step g w (.offer r.queue ⟨(Forwarder.passed d).1, r.token, (Forwarder.passed d).2⟩
          ((w.offered d gone r).delivered != 0))
        { w with
          services := { w.services with queues := (w.offered d gone r).queues }
          relay := .passing d rest (w.offered d gone r).gone }
  | finish {d : Delivery} {gone : List (String × String)} (hr : w.relay = .passing d [] gone) :
      Step g w .finish { w with
        services := { w.services with broker := w.services.broker.prune gone }
        relay := .waiting }
  | elsewhere {t : Services} (hbus : Bus.Uses w.services.bus t.bus)
      (hbroker : t.broker = w.services.broker) (hsettings : t.settings = w.services.settings)
      (hqueues : ∀ k, t.queues[g.queue k]? = w.services.queues[g.queue k]?) :
      Step g w .elsewhere { w with services := t }

inductive Run [DecidableEq ι] [DecidableEq κ] (g : Wiring ι) (w₀ : RunningGateway ι κ) :
    Trace ι κ → RunningGateway ι κ → Prop
  | start : Run g w₀ [] w₀
  | step {tr : Trace ι κ} {w v : RunningGateway ι κ} {m : Move ι} (hr : Run g w₀ tr w)
      (hs : Step g w m v) :
      Run g w₀ (tr ++ [(m, v)]) v

end RunningGateway

variable {ι κ : Type}

def Move.act? [DecidableEq ι] (k : ι) : Move ι → Option Act
  | line j act => if j = k then some act else none
  | _ => none

def acts [DecidableEq ι] (k : ι) (tr : Trace ι κ) : List Act :=
  tr.filterMap fun e => e.1.act? k

theorem acts_concat [DecidableEq ι] (k : ι) (tr : Trace ι κ) (m : Move ι) (v : RunningGateway ι κ) :
    acts k (tr ++ [(m, v)]) = acts k tr ++ (m.act? k).toList :=
  filterMap_concat _ tr (m, v)

namespace RunningGateway
variable [DecidableEq ι] [DecidableEq κ] {g : Wiring ι} {A : ι → List Act}
  {w₀ w v : RunningGateway ι κ}
variable {m : Move ι} {tr : Trace ι κ}

structure Sound (g : Wiring ι) (A : ι → List Act) (w : RunningGateway ι κ) : Prop where
  lines : ∀ k, (w.lines k).Sound (g.owner k) (g.queue k) (A k)
  registered : ∀ r ∈ w.services.broker.registrations,
    (∃ client, r.owner = Observe.owner client) ∧ g.Foreign r.queue ∨
      ∃ k, Line.Holds (g.owner k) (g.queue k) (A k) r
  passing : ∀ r ∈ w.relay.left,
    g.Foreign r.queue ∨ ∃ k, Line.Stands (g.owner k) (g.queue k) (heard (A k)) r
  waiting : ∀ k q, w.services.queues[g.queue k]? = some q → ∀ n ∈ q.items, Meant (heard (A k)) n
  keyed : w.services.broker.Keyed
  watches : ∀ j, ∃ h, (w.watches j).Obeys (fun _ _ => Observe.Conduct g.Foreign) (fun _ _ => True) h

omit [DecidableEq ι] [DecidableEq κ] in
theorem Begins.sound (hb : w.Begins g) : Sound g (fun _ => []) w where
  lines := fun k => by
    obtain ⟨protocol, hk⟩ := hb.lines k
    rw [hk]
    exact Line.sound_opening
  registered := by simp [hb.registrations]
  passing := by simp [hb.relay, Relay.left]
  waiting := fun k q hq n hn => by simp [hb.waiting k q hq] at hn
  keyed := by simp [Broker.Keyed, hb.registrations]
  watches := fun j => by
    obtain ⟨r, hj⟩ := hb.watches j
    rw [hj]
    exact ⟨[], trivial⟩

def after (A : ι → List Act) (m : Move ι) (k : ι) : List Act := A k ++ (m.act? k).toList

omit [DecidableEq κ] in
theorem after_line_self (A : ι → List Act) (k : ι) (act : Act) :
    after A (.line k act) k = A k ++ [act] := by
  simp [after, Move.act?]

theorem after_line_of_ne (A : ι → List Act) {j k : ι} (hjk : j ≠ k) (act : Act) :
    after A (.line j act) k = A k := by
  simp [after, Move.act?, hjk]

theorem heard_after (A : ι → List Act) (m : Move ι) (k : ι) :
    heard (A k) <+: heard (after A m k) := by
  rw [after, heard, heard, List.filterMap_append]
  exact List.prefix_append _ _

omit [DecidableEq κ] in
theorem Sound.setWriter (h : Sound g A w) {j : ι} (hw : (w.lines j).writer ≠ .absent)
    (writer : Writer) (k : ι) :
    ((w.setWriter j writer).lines k).Sound (g.owner k) (g.queue k) (A k) := by
  by_cases hjk : j = k
  · subst hjk
    simpa [RunningGateway.setWriter] using (h.lines j).setWriter hw writer
  · simpa [RunningGateway.setWriter, Function.update_of_ne (Ne.symm hjk)] using h.lines k

theorem Sound.lines_step (h : Sound g A w) (hs : Step g w m v) (k : ι) :
    (v.lines k).Sound (g.owner k) (g.queue k) (after A m k) := by
  cases hs with
  | @line j act t l hl =>
    by_cases hjk : j = k
    · subst hjk
      simpa [after_line_self] using (h.lines j).step hl
    · simpa [after_line_of_ne A hjk, Function.update_of_ne (Ne.symm hjk)] using h.lines k
  | deliver j hw hq ht =>
    simpa [after, Move.act?] using h.setWriter (hw ▸ nofun) .sending k
  | sent j hw => simpa [after, Move.act?] using h.setWriter (hw ▸ nofun) .idle k
  | hush j hq => simpa [after, Move.act?] using h.lines k
  | _ => simpa [after, Move.act?] using h.lines k

theorem Sound.registered_step (h : Sound g A w) (hs : Step g w m v) (r : Registration)
    (hr : r ∈ v.services.broker.registrations) :
    (∃ client, r.owner = Observe.owner client) ∧ g.Foreign r.queue ∨
      ∃ k, Line.Holds (g.owner k) (g.queue k) (after A m k) r := by
  have hkept : (∀ k, m.act? k = none) → r ∈ w.services.broker.registrations →
      (∃ client, r.owner = Observe.owner client) ∧ g.Foreign r.queue ∨
        ∃ k, Line.Holds (g.owner k) (g.queue k) (after A m k) r := by
    intro hm hr
    have hsame : after A m = A := funext fun k => by simp [after, hm]
    rw [hsame]
    exact h.registered r hr
  cases hs with
  | @line j act t l hl =>
    rcases (h.lines j).registered_step hl hr with ⟨hold, hact⟩ | hholds
    · rcases h.registered r hold with hforeign | ⟨k, hk⟩
      · exact .inl hforeign
      · refine .inr ⟨k, ?_⟩
        by_cases hjk : j = k
        · subst hjk
          rw [after_line_self]
          exact hk.step (hk.stands.owner ▸ hact)
        · rwa [after_line_of_ne A hjk]
    · exact .inr ⟨j, by rwa [after_line_self]⟩
  | answer j hj ht =>
    rcases ht.mem_registrations hr with hold | ⟨o, entries, queue, rfl, e, he, rfl⟩
    · exact hkept (fun _ => rfl) hold
    · obtain ⟨h', hobeys⟩ := h.watches j
      rw [hj] at hobeys
      exact .inl (hobeys.1 o entries queue rfl)
  | finish hpass => exact hkept (fun _ => rfl) (Broker.mem_of_mem_prune hr)
  | elsewhere hbus hbroker hsettings hqueues => exact hkept (fun _ => rfl) (hbroker ▸ hr)
  | _ => exact hkept (fun _ => rfl) hr

theorem Sound.passing_step (h : Sound g A w) (hs : Step g w m v) (r : Registration)
    (hr : r ∈ v.relay.left) :
    g.Foreign r.queue ∨ ∃ k, Line.Stands (g.owner k) (g.queue k) (heard (after A m k)) r := by
  have hkept : r ∈ w.relay.left →
      g.Foreign r.queue ∨ ∃ k, Line.Stands (g.owner k) (g.queue k) (heard (after A m k)) r := by
    intro hr
    rcases h.passing r hr with hforeign | ⟨k, hk⟩
    · exact .inl hforeign
    · exact .inr ⟨k, hk.mono (heard_after A m k)⟩
  cases hs with
  | take hwait hd => cases hr
  | @publish d left hhold hleft =>
    -- A line may sweep its registrations while they are offered to, so only what it asked for stays.
    rcases h.registered r (hleft.subset hr) with ⟨-, hforeign⟩ | ⟨k, hk⟩
    · exact .inl hforeign
    · exact .inr ⟨k, hk.stands.mono (heard_after A _ k)⟩
  | offer hpass =>
    apply hkept
    rw [hpass]
    exact List.mem_cons_of_mem _ hr
  | finish hpass => cases hr
  | _ => exact hkept hr

theorem Sound.waiting_step (h : Sound g A w) (hs : Step g w m v) (k : ι) (q : Queue)
    (hq : v.services.queues[g.queue k]? = some q) (n : Notification) (hn : n ∈ q.items) :
    Meant (heard (after A m k)) n := by
  have hkept : ∀ q, w.services.queues[g.queue k]? = some q → n ∈ q.items →
      Meant (heard (after A m k)) n :=
    fun q hq hn => (h.waiting k q hq n hn).mono (heard_after A m k)
  cases hs with
  | line j hl => exact hkept q (hl.queues ▸ hq) hn
  | @deliver j hw q₀ q' n' hq₀ ht =>
    by_cases hjk : j = k
    · subst hjk
      rw [setWriter_services, getElem?_setQueue_self hq₀] at hq
      cases hq
      exact hkept q₀ hq₀ ((Queue.items_of_take ht).1 ▸ List.mem_cons_of_mem _ hn)
    · rw [setWriter_services, getElem?_setQueue_of_ne hjk] at hq
      exact hkept q hq hn
  | @hush j q₀ hq₀ =>
    by_cases hjk : j = k
    · subst hjk
      rw [getElem?_setQueue_self hq₀] at hq
      cases hq
      cases hn
    · rw [getElem?_setQueue_of_ne hjk] at hq
      exact hkept q hq hn
  | answer j hj ht => exact hkept q (ht.queues ▸ hq) hn
  | @offer d r rest gone hpass =>
    rcases w.offered_cases d gone r with
      ⟨-, hm, q₀, q', hq₀, -, hitems, -, hset⟩ | ⟨-, hsame⟩
    · by_cases hrk : r.queue = g.queue k
      · have hq' : some q' = some q := by
          obtain ⟨hlt, -⟩ := List.getElem?_eq_some_iff.1 hq₀
          rw [← hq, hset, ← hrk, List.getElem?_set_self hlt]
        cases hq'
        rw [hitems] at hn
        rcases List.mem_append.1 hn with hn | hn
        · exact hkept q₀ (hrk ▸ hq₀) hn
        · rw [List.mem_singleton.1 hn]
          rcases h.passing r (hpass ▸ List.mem_cons_self) with hforeign | ⟨i, hi⟩
          · exact absurd hrk (hforeign k)
          · have hik : i = k := g.queue_injective (hi.queue.symm.trans hrk)
            subst hik
            exact (hi.meant hm r.token d.message).mono (heard_after A _ i)
      · rw [hset, List.getElem?_set_ne hrk] at hq
        exact hkept q hq hn
    · rw [hsame] at hq
      exact hkept q hq hn
  | elsewhere hbus hbroker hsettings hqueues => exact hkept q (hqueues k ▸ hq) hn
  | _ => exact hkept q hq hn

theorem Sound.watches_step (h : Sound g A w) (hs : Step g w m v) (j : κ) :
    ∃ h, (v.watches j).Obeys (fun _ _ => Observe.Conduct g.Foreign) (fun _ _ => True) h := by
  cases hs with
  | @observe i work hb =>
    by_cases hij : i = j
    · subst hij
      exact ⟨[], by simpa using hb.obeys⟩
    · simpa [Function.update_of_ne (Ne.symm hij)] using h.watches j
  | @answer i c f hi r t ht =>
    by_cases hij : i = j
    · subst hij
      obtain ⟨h', hobeys⟩ := h.watches i
      rw [hi] at hobeys
      exact ⟨h' ++ [⟨c, r⟩], by simpa using hobeys.2 r⟩
    · simpa [Function.update_of_ne (Ne.symm hij)] using h.watches j
  | _ => exact h.watches j

theorem Sound.keyed_step (h : Sound g A w) (hs : Step g w m v) : v.services.broker.Keyed := by
  cases hs with
  | line j hl => exact hl.keyed h.keyed
  | answer j hj ht => exact ht.keyed h.keyed
  | finish hpass => exact h.keyed.filter _
  | elsewhere hbus hbroker hsettings hqueues => exact hbroker ▸ h.keyed
  | _ => exact h.keyed

theorem Sound.step (h : Sound g A w) (hs : Step g w m v) : Sound g (after A m) v where
  lines := h.lines_step hs
  registered := h.registered_step hs
  passing := h.passing_step hs
  waiting := h.waiting_step hs
  keyed := h.keyed_step hs
  watches := h.watches_step hs

theorem Run.sound (hr : Run g w₀ tr w) (hb : w₀.Begins g) : Sound g (acts · tr) w := by
  induction hr with
  | start => exact hb.sound
  | @step tr w v m hr hs ih =>
    have hstep := ih.step hs
    have hafter : after (acts · tr) m = (acts · (tr ++ [(m, v)])) :=
      funext fun k => (acts_concat k tr m v).symm
    rwa [hafter] at hstep

theorem Run.path (hr : Run g w₀ tr w) {k : ι} {as : List Act} {t : Services} {l : Line}
    (hp : Line.Path (g.queue k) w.services (w.lines k) as t l) :
    ∃ more, Run g w₀ (tr ++ more) { w with services := t, lines := Function.update w.lines k l } ∧
      ∀ e ∈ more, ∃ act, e.1 = .line k act := by
  induction hp with
  | start => exact ⟨[], by simpa using hr, by simp⟩
  | @step as s t l l' act hp hs ih =>
    obtain ⟨more, hmore, hall⟩ := ih
    have hstep := hmore.step (.line k (by simpa using hs))
    simp only [List.append_assoc, Function.update_idem] at hstep
    refine ⟨_, hstep, fun e he => ?_⟩
    rcases List.mem_append.1 he with he | he
    · exact hall e he
    · rw [List.mem_singleton.1 he]
      exact ⟨act, rfl⟩

omit [DecidableEq ι] [DecidableEq κ] in
theorem offer_offered (d : Delivery) (f : Broker.FanOut) (r : Registration)
    (hf : f.queues = w.services.queues) :
    (f.offer (Forwarder.passed d).1 (Forwarder.passed d).2 r).queues =
        (w.offered d f.gone r).queues ∧
      (f.offer (Forwarder.passed d).1 (Forwarder.passed d).2 r).gone =
        (w.offered d f.gone r).gone := by
  simp only [offered, Broker.FanOut.offer, ← hf]
  split
  · split <;> exact ⟨rfl, rfl⟩
  · exact ⟨rfl, rfl⟩

def single : RunningGateway Unit Empty where
  services := {
    registrar := { store := ⟨[]⟩ }
    policy := ⟨[]⟩
    bus := (Forwarder.subscribe {} "mqtt").1
    queues := [⟨1, [], true, by simp⟩] }
  lines := fun _ => { serving := .opening (.start "1" .mqtt) }
  watches := nofun

def singleWiring : Wiring Unit where
  name := fun _ => "1"
  queue := fun _ => 0
  inbox := 0
  name_injective := fun _ _ _ => rfl
  queue_injective := fun _ _ _ => rfl

theorem begins_single : single.Begins singleWiring where
  lines := fun _ => ⟨.mqtt, rfl⟩
  waiting := fun _ q hq => by
    cases hq
    rfl
  registrations := rfl
  watches := nofun
  relay := rfl

def singleSession : Session := Line.connectedAs "1" .mqtt "a" ⟨"a"⟩ ⟨0, 0⟩

theorem run_single : ∃ tr, Run singleWiring single tr
      { single with lines := fun _ => { serving := .reading singleSession, writer := .idle } } ∧
    ∀ e ∈ tr, ∃ act, e.1 = .line () act := by
  have hframe : Packet.ofFrame? (Packet.connect "a").frame = some (.connect "a") :=
    Packet.ofFrame?_frame _
  obtain ⟨as, hpath⟩ := Line.path_connects single.services "1" .mqtt hframe (by decide)
    ⟨"a"⟩ ⟨0, 0⟩
  have hstart : Run singleWiring single [] single := .start
  obtain ⟨tr, hr, hall⟩ := hstart.path (k := ()) hpath
  rw [Function.update_eq_const_of_subsingleton] at hr
  exact ⟨tr, hr, hall⟩

end RunningGateway

end DeviceGateway
