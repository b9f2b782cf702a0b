import DeviceGateway.Bus.Broker
import Mathlib.Data.List.Dedup

/-!
# The broker's registrations and what a fan-out adds to each queue

Whatever is registered and removed, there is one registration for each owner and token. A fan-out
adds to a queue what the registrations that send to it match, in their order and as far as there is
room, and leaves all other queues as they are.
-/

namespace DeviceGateway

namespace Broker

def Keyed (b : Broker) : Prop := (b.registrations.map Registration.key).Nodup

theorem Keyed.filter {b : Broker} (h : b.Keyed) (p : Registration → Bool) :
    Keyed ⟨b.registrations.filter p⟩ :=
  (List.filter_sublist.map _).nodup h

theorem Keyed.register {b : Broker} (h : b.Keyed) (r : Registration) : (b.register r).Keyed := by
  simp only [Keyed, Broker.register, List.map_append, List.map_singleton]
  refine List.nodup_append.2 ⟨h.filter _, by simp, fun k hk l hl => ?_⟩
  obtain ⟨x, hx, rfl⟩ := List.mem_map.1 hk
  rw [List.mem_singleton.1 hl]
  exact (mem_erase.1 hx).2

theorem Keyed.registerAll {b : Broker} (h : b.Keyed) (owner : String)
    (entries : List (String × String)) (queue : QueueId) :
    (b.registerAll owner entries queue).Keyed := by
  induction entries generalizing b with
  | nil => exact h
  | cons e rest ih => exact ih (h.register _)

theorem Keyed.deregisterFilter {b : Broker} (h : b.Keyed) (owner token filter : String) :
    (b.deregisterFilter owner token filter).1.Keyed := by
  simp only [Broker.deregisterFilter]
  split
  · split
    · exact h.filter _
    · exact h
  · exact h

theorem mem_registerAll {b : Broker} {owner : String} {entries : List (String × String)}
    {queue : QueueId} {r : Registration}
    (h : r ∈ (b.registerAll owner entries queue).registrations) :
    r ∈ b.registrations ∨ ∃ e ∈ entries, r = ⟨owner, e.1, e.2, queue⟩ := by
  induction entries generalizing b with
  | nil => exact .inl h
  | cons e rest ih =>
    rcases ih h with h | ⟨e', he', rfl⟩
    · rcases mem_register.1 h with rfl | ⟨h, -⟩
      · exact .inr ⟨e, List.mem_cons_self, rfl⟩
      · exact .inl h
    · exact .inr ⟨e', List.mem_cons_of_mem _ he', rfl⟩

theorem mem_of_mem_deregister {b : Broker} {owner token : String} {r : Registration}
    (h : r ∈ (b.deregister owner token).1.registrations) : r ∈ b.registrations :=
  (mem_erase.1 h).1

theorem mem_of_mem_deregisterFilter {b : Broker} {owner token filter : String} {r : Registration}
    (h : r ∈ (b.deregisterFilter owner token filter).1.registrations) : r ∈ b.registrations := by
  simp only [deregisterFilter] at h
  split at h
  · split at h
    · exact (mem_erase.1 h).1
    · exact h
  · exact h

theorem mem_deregisterOwner {b : Broker} {owner : String} {r : Registration} :
    r ∈ (b.deregisterOwner owner).1.registrations ↔ r ∈ b.registrations ∧ r.owner ≠ owner := by
  simp [deregisterOwner]

theorem mem_of_mem_prune {b : Broker} {gone : List (String × String)} {r : Registration}
    (h : r ∈ (b.prune gone).registrations) : r ∈ b.registrations :=
  (List.mem_filter.1 h).1

def filtersOf (b : Broker) (owner : String) : List String :=
  ((b.registrations.filter (·.owner = owner)).map (·.filter)).dedup

theorem Keyed.filtersOf {b : Broker} (h : b.Keyed) {owner : String}
    (ht : ∀ r ∈ b.registrations, r.owner = owner → r.token = r.filter) :
    b.filtersOf owner = (b.registrations.filter (·.owner = owner)).map (·.filter) := by
  have hkeys : ((b.registrations.filter (·.owner = owner)).map Registration.key).Nodup := h.filter _
  have hkey : (b.registrations.filter (·.owner = owner)).map Registration.key =
      ((b.registrations.filter (·.owner = owner)).map (·.filter)).map fun f => (owner, f) := by
    rw [List.map_map]
    refine List.map_congr_left fun r hr => ?_
    obtain ⟨hr, ho⟩ := List.mem_filter.1 hr
    rw [decide_eq_true_eq] at ho
    simp [Registration.key, ho, ht r hr ho]
  rw [hkey] at hkeys
  exact (hkeys.of_map _).dedup

end Broker

namespace Queue

def offerAll (q : Queue) (ns : List Notification) : Queue := ns.foldl (fun q n => (q.offer n).1) q

theorem offer_of_closed {q : Queue} (h : q.isOpen = false) (n : Notification) :
    q.offer n = (q, .closed) := by
  simp [offer, h]

theorem offer_fst_isOpen (q : Queue) (n : Notification) : (q.offer n).1.isOpen = q.isOpen := by
  simp only [offer]
  split
  · rfl
  · split <;> rfl

theorem offer_fst_capacity (q : Queue) (n : Notification) :
    (q.offer n).1.capacity = q.capacity := by
  simp only [offer]
  split
  · rfl
  · split <;> rfl

theorem items_of_take {q q' : Queue} {n : Notification} (h : q.take = some (n, q')) :
    q.items = n :: q'.items ∧ q'.isOpen = q.isOpen := by
  obtain ⟨n', hhead, heq⟩ := Option.map_eq_some_iff.1 h
  cases heq
  exact ⟨(List.cons_head?_tail hhead).symm, rfl⟩

theorem offerAll_of_closed {q : Queue} (h : q.isOpen = false) (ns : List Notification) :
    q.offerAll ns = q := by
  induction ns with
  | nil => rfl
  | cons n ns ih => rwa [offerAll, List.foldl_cons, offer_of_closed h]

theorem offerAll_isOpen (q : Queue) (ns : List Notification) :
    (q.offerAll ns).isOpen = q.isOpen := by
  induction ns generalizing q with
  | nil => rfl
  | cons n ns ih => exact (ih _).trans (offer_fst_isOpen q n)

theorem offerAll_capacity (q : Queue) (ns : List Notification) :
    (q.offerAll ns).capacity = q.capacity := by
  induction ns generalizing q with
  | nil => rfl
  | cons n ns ih => exact (ih _).trans (offer_fst_capacity q n)

theorem offerAll_items {q : Queue} (h : q.isOpen = true) (ns : List Notification) :
    (q.offerAll ns).items = q.items ++ ns.take q.free := by
  induction ns generalizing q with
  | nil => simp [offerAll]
  | cons n ns ih =>
    have hopen : (q.offer n).1.isOpen = true := (offer_fst_isOpen q n).trans h
    have hitems := offer_items q n
    have hle := q.items_le
    rw [offerAll, List.foldl_cons]
    refine (ih hopen).trans ?_
    by_cases hroom : q.items.length < q.capacity
    · rw [if_pos ⟨h, hroom⟩] at hitems
      have hfree : q.free = (q.offer n).1.free + 1 := by
        simp only [free, offer_fst_capacity, hitems, List.length_append, List.length_singleton]
        omega
      rw [hitems, hfree, List.take_succ_cons, List.append_assoc, List.singleton_append]
    · rw [if_neg fun hc => hroom hc.2] at hitems
      have hfull : q.free = 0 := by
        simp only [free]
        omega
      have hfull' : (q.offer n).1.free = 0 := by
        simp only [free, offer_fst_capacity, hitems]
        omega
      rw [hitems, hfull, hfull', List.take_zero, List.take_zero]

end Queue

theorem Queues.getElem?_offer (qs : Queues) (i id : QueueId) (n : Notification) :
    (qs.offer i n).1[id]? = if i = id then qs[id]?.map fun q => (q.offer n).1 else qs[id]? := by
  simp only [Queues.offer]
  split
  · rename_i hnone
    split
    · rename_i h
      rw [← h, hnone]
      rfl
    · rfl
  · rename_i q hq
    rw [List.getElem?_set]
    split
    · rename_i h
      have hlt : i < qs.length := (List.getElem?_eq_some_iff.1 hq).1
      rw [← h, hq, if_pos hlt]
      rfl
    · rfl

theorem Queues.offer_cases (qs : Queues) (id : QueueId) (n : Notification) :
    (∃ q q', qs[id]? = some q ∧ q.isOpen = true ∧ q'.items = q.items ++ [n] ∧ q'.isOpen = true ∧
      qs.offer id n = (qs.set id q', .taken)) ∨
    (qs.offer id n).1 = qs ∧ (qs.offer id n).2 ≠ .taken := by
  simp only [Queues.offer]
  split
  · exact .inr ⟨rfl, by simp⟩
  · rename_i q hq
    have hset : qs.set id q = qs := by
      obtain ⟨hlt, rfl⟩ := List.getElem?_eq_some_iff.1 hq
      exact List.set_getElem_self hlt
    by_cases hopen : q.isOpen = true
    · by_cases hroom : q.items.length < q.capacity
      · refine .inl ⟨q, (q.offer n).1, hq, hopen, ?_, (Queue.offer_fst_isOpen q n).trans hopen, ?_⟩
        · rw [Queue.offer_items, if_pos ⟨hopen, hroom⟩]
        · simp [Queue.offer, hopen, hroom]
      · simp [Queue.offer, hopen, hroom, hset]
    · simp [Queue.offer, hopen, hset]

namespace Broker

/-- What a message on `topic` is for the registrations that send it to `queue`. -/
def notifications (rs : List Registration) (topic : String) (message : Message) (queue : QueueId) :
    List Notification :=
  (rs.filter fun r => r.queue = queue ∧ Subject.filterMatches r.filter topic).map
    fun r => ⟨topic, r.token, message⟩

theorem notifications_singleton (r : Registration) (topic : String) (message : Message)
    (queue : QueueId) :
    notifications [r] topic message queue =
      if r.queue = queue ∧ Subject.filterMatches r.filter topic then [⟨topic, r.token, message⟩]
      else [] := by
  by_cases h : r.queue = queue ∧ Subject.filterMatches r.filter topic = true
  · simp [notifications, h]
  · rw [if_neg h, notifications, List.map_eq_nil_iff, List.filter_eq_nil_iff]
    rintro x hx
    rw [List.mem_singleton.1 hx, decide_eq_true_eq]
    exact h

theorem offer_queues (topic : String) (message : Message) (f : FanOut) (r : Registration) :
    (f.offer topic message r).queues =
      if Subject.filterMatches r.filter topic then
        (f.queues.offer r.queue ⟨topic, r.token, message⟩).1
      else f.queues := by
  simp only [FanOut.offer]
  split
  · split <;> rfl
  · rfl

theorem getElem?_offer_queues (topic : String) (message : Message) (f : FanOut) (r : Registration)
    (id : QueueId) :
    (f.offer topic message r).queues[id]? =
      f.queues[id]?.map (·.offerAll (notifications [r] topic message id)) := by
  rw [offer_queues, notifications_singleton]
  by_cases hm : Subject.filterMatches r.filter topic = true
  · rw [if_pos hm, Queues.getElem?_offer]
    by_cases hid : r.queue = id
    · rw [if_pos hid, if_pos ⟨hid, hm⟩]
      rfl
    · rw [if_neg hid, if_neg fun hc => hid hc.1]
      simp [Queue.offerAll]
  · rw [if_neg hm, if_neg fun hc => hm hc.2]
    simp [Queue.offerAll]

theorem getElem?_foldl_offer_queues (topic : String) (message : Message) (rs : List Registration)
    (f : FanOut) (id : QueueId) :
    (rs.foldl (FanOut.offer topic message) f).queues[id]? =
      f.queues[id]?.map (·.offerAll (notifications rs topic message id)) := by
  induction rs generalizing f with
  | nil => simp [notifications, Queue.offerAll]
  | cons r rs ih =>
    rw [List.foldl_cons, ih, getElem?_offer_queues, Option.map_map]
    congr 1
    funext q
    simp only [notifications, Queue.offerAll, Function.comp_apply, ← List.foldl_append,
      ← List.map_append, ← List.filter_append, List.singleton_append]

theorem getElem?_publish_queues (b : Broker) (topic : String) (message : Message) (qs : Queues)
    (id : QueueId) :
    (b.publish topic message qs).2.1[id]? =
      qs[id]?.map (·.offerAll (notifications b.registrations topic message id)) :=
  getElem?_foldl_offer_queues topic message b.registrations { queues := qs } id

theorem offer_cases (topic : String) (message : Message) (f : FanOut) (r : Registration) :
    ((f.offer topic message r).delivered = f.delivered + 1 ∧
      Subject.filterMatches r.filter topic = true ∧ ∃ q q', f.queues[r.queue]? = some q ∧
        q.isOpen = true ∧ q'.items = q.items ++ [⟨topic, r.token, message⟩] ∧ q'.isOpen = true ∧
        (f.offer topic message r).queues = f.queues.set r.queue q') ∨
    (f.offer topic message r).delivered = f.delivered ∧
      (f.offer topic message r).queues = f.queues := by
  by_cases hm : Subject.filterMatches r.filter topic = true
  · simp only [FanOut.offer, if_pos hm]
    rcases f.queues.offer_cases r.queue ⟨topic, r.token, message⟩ with
      ⟨q, q', hq, hopen, hitems, hopen', htaken⟩ | ⟨hsame, hreply⟩
    · rw [htaken]
      exact .inl ⟨rfl, hm, q, q', hq, hopen, hitems, hopen', rfl⟩
    · right
      split
      · rename_i h
        exact absurd h hreply
      · exact ⟨rfl, hsame⟩
      · exact ⟨rfl, hsame⟩
  · simp [FanOut.offer, hm]

theorem notifications_of_forall_ne {rs : List Registration} {queue : QueueId}
    (h : ∀ r ∈ rs, r.queue ≠ queue) (topic : String) (message : Message) :
    notifications rs topic message queue = [] := by
  rw [notifications, List.map_eq_nil_iff, List.filter_eq_nil_iff]
  exact fun r hr hc => h r hr (of_decide_eq_true hc).1

end Broker

end DeviceGateway
