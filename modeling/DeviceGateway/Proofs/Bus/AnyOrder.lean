import DeviceGateway.Proofs.Bus.Pruning
import Mathlib.Algebra.GroupWithZero.Nat

/-!
# A fan-out in any order

The registrations are visited in an order that nothing fixes, and several of them may send to one
queue. Which of their notifications still fit depends on that order; how many do, and what is left
registered, does not. A queue that is open gains as many notifications as match and find room, all
of the same message, and each registration stays unless it matched and its queue is not open.
-/

namespace DeviceGateway

/-- What a notification says, apart from the token that it is for. -/
def Notification.told (n : Notification) : String × Message := (n.topic, n.message)

def Queue.contents (q : Queue) : List (String × Message) := q.items.map Notification.told

namespace Broker

def matching (b : Broker) (topic : String) (queue : QueueId) : Nat :=
  b.registrations.countP fun r => r.queue = queue ∧ Subject.filterMatches r.filter topic

def share (b : Broker) (topic : String) (id : QueueId) (q : Queue) : Nat :=
  if q.isOpen then min q.free (b.matching topic id) else 0

/-- All that a publish comes to, said without an order of the registrations. -/
structure Delivers (b : Broker) (topic : String) (message : Message) (qs : Queues)
    (out : Broker × Queues × Nat) : Prop where
  count : out.2.2 = (qs.mapIdx (b.share topic)).sum
  kept : ∀ r, r ∈ out.1.registrations ↔ r ∈ b.registrations ∧
    (Subject.filterMatches r.filter topic = true → qs.IsOpen r.queue)
  length : out.2.1.length = qs.length
  queue : ∀ (id : QueueId) (q : Queue), qs[id]? = some q → ∃ q', out.2.1[id]? = some q' ∧
    q'.isOpen = q.isOpen ∧ q'.capacity = q.capacity ∧ q'.items.length ≤ q'.capacity ∧
    ∃ more, q'.items = q.items ++ more ∧
      more.map Notification.told = List.replicate (b.share topic id q) (topic, message)

variable {b b' : Broker} {topic : String} {message : Message} {qs : Queues}

theorem length_notifications (b : Broker) (topic : String) (message : Message) (queue : QueueId) :
    (notifications b.registrations topic message queue).length = b.matching topic queue := by
  rw [notifications, List.length_map, matching, List.countP_eq_length_filter]

theorem told_of_mem_notifications {rs : List Registration} {queue : QueueId} {n : Notification}
    (h : n ∈ notifications rs topic message queue) : n.told = (topic, message) := by
  obtain ⟨r, -, rfl⟩ := List.mem_map.1 h
  rfl

theorem offerAll_notifications (b : Broker) (topic : String) (message : Message) (q : Queue)
    (id : QueueId) :
    ∃ more, (q.offerAll (notifications b.registrations topic message id)).items = q.items ++ more ∧
      more.map Notification.told = List.replicate (b.share topic id q) (topic, message) := by
  cases hopen : q.isOpen with
  | false =>
    refine ⟨[], by rw [Queue.offerAll_of_closed hopen, List.append_nil], ?_⟩
    simp [share, hopen]
  | true =>
    refine ⟨_, Queue.offerAll_items hopen _, List.eq_replicate_iff.2 ⟨?_, fun c hc => ?_⟩⟩
    · simp [share, hopen, length_notifications]
    · obtain ⟨n, hn, rfl⟩ := List.mem_map.1 hc
      exact told_of_mem_notifications (List.mem_of_mem_take hn)

def load (qs : Queues) : Nat := (qs.map (·.items.length)).sum

theorem load_set {id : QueueId} {q q' : Queue} (hq : qs[id]? = some q)
    (hlen : q'.items.length = q.items.length + 1) : load (qs.set id q') = load qs + 1 := by
  induction qs generalizing id with
  | nil => simp at hq
  | cons p qs ih =>
    cases id with
    | zero =>
      obtain rfl : p = q := by simpa using hq
      simp only [load, List.set_cons_zero, List.map_cons, List.sum_cons, hlen]
      omega
    | succ id =>
      have hrest := @ih id (by simpa using hq)
      simp only [load, List.set_cons_succ, List.map_cons, List.sum_cons] at hrest ⊢
      omega

theorem load_mapIdx {f : Nat → Queue → Queue} {gain : Nat → Queue → Nat}
    (h : ∀ id q, (f id q).items.length = q.items.length + gain id q) (qs : Queues) :
    load (qs.mapIdx f) = load qs + (qs.mapIdx gain).sum := by
  induction qs generalizing f gain with
  | nil => rfl
  | cons q qs ih =>
    have hrest := @ih (fun id => f (id + 1)) (fun id => gain (id + 1)) fun id q => h (id + 1) q
    simp only [load, List.mapIdx_cons, List.map_cons, List.sum_cons, h] at hrest ⊢
    omega

theorem load_foldl_offer (rs : List Registration) (f : FanOut) :
    load (rs.foldl (FanOut.offer topic message) f).queues + f.delivered =
      load f.queues + (rs.foldl (FanOut.offer topic message) f).delivered := by
  induction rs generalizing f with
  | nil => rfl
  | cons r rs ih =>
    have hrest := ih (f.offer topic message r)
    rw [List.foldl_cons]
    rcases offer_cases topic message f r with
      ⟨hdelivered, -, q, q', hq, -, hitems, -, hset⟩ | ⟨hdelivered, hsame⟩
    · have hload : load (f.offer topic message r).queues = load f.queues + 1 := by
        rw [hset]
        exact load_set hq (by simp [hitems])
      omega
    · rw [hsame] at hrest
      omega

theorem queues_publish (b : Broker) (topic : String) (message : Message) (qs : Queues) :
    (b.publish topic message qs).2.1 = qs.mapIdx fun id q =>
      q.offerAll (notifications b.registrations topic message id) := by
  refine List.ext_getElem? fun id => ?_
  rw [getElem?_publish_queues, List.getElem?_mapIdx]

theorem count_publish (b : Broker) (topic : String) (message : Message) (qs : Queues) :
    (b.publish topic message qs).2.2 = (qs.mapIdx (b.share topic)).sum := by
  -- What waits afterwards, told from the visits and told from the queues.
  have hcounted : load (b.publish topic message qs).2.1 =
      load qs + (b.publish topic message qs).2.2 :=
    load_foldl_offer b.registrations { queues := qs }
  have hgained : load (b.publish topic message qs).2.1 =
      load qs + (qs.mapIdx (b.share topic)).sum := by
    rw [queues_publish]
    refine load_mapIdx (fun id q => ?_) qs
    obtain ⟨more, hitems, hmore⟩ := b.offerAll_notifications topic message q id
    have hlen := congrArg List.length hmore
    rw [List.length_map, List.length_replicate] at hlen
    rw [hitems, List.length_append, hlen]
  omega

theorem offer_closed_iff {id : QueueId} (n : Notification) :
    (qs.offer id n).2 = .closed ↔ ¬qs.IsOpen id := by
  simp only [Queues.offer, Queues.IsOpen]
  cases hq : qs[id]? with
  | none => simp
  | some q =>
    cases hopen : q.isOpen with
    | false => simp [Queue.offer_of_closed hopen, hopen]
    | true => simpa [hopen] using Queue.offer_ne_closed hopen n

theorem mem_gone_offer_iff {f : FanOut} {r : Registration} {k : String × String} :
    k ∈ (f.offer topic message r).gone ↔ k ∈ f.gone ∨
      k = r.key ∧ Subject.filterMatches r.filter topic = true ∧ ¬f.queues.IsOpen r.queue := by
  rw [← offer_closed_iff ⟨topic, r.token, message⟩]
  simp only [FanOut.offer]
  split
  · rename_i hm
    split
    · rename_i hreply
      simp [hreply]
    · rename_i hreply
      simp [hreply]
    · rename_i hreply
      simp [hreply, hm]
  · rename_i hm
    simp [hm]

theorem mem_gone_foldl_offer_iff {rs : List Registration} {f : FanOut} {k : String × String} :
    k ∈ (rs.foldl (FanOut.offer topic message) f).gone ↔ k ∈ f.gone ∨ ∃ r ∈ rs, k = r.key ∧
      Subject.filterMatches r.filter topic = true ∧ ¬f.queues.IsOpen r.queue := by
  induction rs generalizing f with
  | nil => simp
  | cons r rs ih =>
    have hsame : ∀ id, (f.offer topic message r).queues.IsOpen id ↔ f.queues.IsOpen id :=
      isOpen_foldl_offer [r] f
    rw [List.foldl_cons, ih, mem_gone_offer_iff, or_assoc]
    simp only [hsame, List.mem_cons, or_and_right, exists_or, exists_eq_left]

theorem mem_publish (hk : b.Keyed) {r : Registration} :
    r ∈ (b.publish topic message qs).1.registrations ↔ r ∈ b.registrations ∧
      (Subject.filterMatches r.filter topic = true → qs.IsOpen r.queue) := by
  have hgone : r ∈ b.registrations → (r.key ∈ (b.fanOut topic message qs).gone ↔
      Subject.filterMatches r.filter topic = true ∧ ¬qs.IsOpen r.queue) := by
    intro hr
    rw [fanOut, mem_gone_foldl_offer_iff, or_iff_right (List.not_mem_nil)]
    constructor
    · rintro ⟨r', hr', hkey, hshut⟩
      -- The key that was remembered is that of one registration only.
      obtain rfl := hk.eq_of_key hr hr' hkey
      exact hshut
    · exact fun hshut => ⟨r, hr, rfl, hshut⟩
  simp only [publish, prune, List.mem_filter]
  refine and_congr_right fun hr => ?_
  rw [Bool.not_eq_true', ← Bool.not_eq_true, List.contains_iff_mem, hgone hr]
  tauto

theorem publish_delivers (hk : b.Keyed) (topic : String) (message : Message) (qs : Queues) :
    b.Delivers topic message qs (b.publish topic message qs) where
  count := count_publish b topic message qs
  kept := fun _ => mem_publish hk
  length := length_foldl_offer b.registrations { queues := qs }
  queue := fun id q hq => by
    refine ⟨_, by rw [getElem?_publish_queues, hq]; rfl, Queue.offerAll_isOpen _ _,
      Queue.offerAll_capacity _ _, Queue.items_le _, ?_⟩
    exact b.offerAll_notifications topic message q id

theorem matching_perm (h : b'.registrations.Perm b.registrations) (topic : String) :
    b'.matching topic = b.matching topic :=
  funext fun _ => h.countP_eq _

theorem Delivers.perm {out : Broker × Queues × Nat} (h : b'.registrations.Perm b.registrations)
    (hd : b'.Delivers topic message qs out) : b.Delivers topic message qs out := by
  have hshare : b'.share topic = b.share topic := by
    funext id q
    rw [share, share, matching_perm h]
  obtain ⟨hcount, hkept, hlength, hqueue⟩ := hd
  simp only [hshare] at hcount hqueue
  exact ⟨hcount, fun r => by rw [hkept, h.mem_iff], hlength, hqueue⟩

theorem Delivers.contents {out out' : Broker × Queues × Nat}
    (h : b.Delivers topic message qs out) (h' : b.Delivers topic message qs out') :
    out.2.1.map Queue.contents = out'.2.1.map Queue.contents := by
  refine List.ext_getElem? fun id => ?_
  rw [List.getElem?_map, List.getElem?_map]
  cases hq : qs[id]? with
  | none =>
    have hlen := List.getElem?_eq_none_iff.1 hq
    rw [List.getElem?_eq_none (h.length ▸ hlen), List.getElem?_eq_none (h'.length ▸ hlen)]
  | some q =>
    obtain ⟨p, hp, -, -, -, more, hitems, hmore⟩ := h.queue id q hq
    obtain ⟨p', hp', -, -, -, more', hitems', hmore'⟩ := h'.queue id q hq
    rw [hp, hp', Option.map_some, Option.map_some, Queue.contents, Queue.contents, hitems, hitems',
      List.map_append, List.map_append, hmore, hmore']

theorem Keyed.nodup (hk : b.Keyed) : b.registrations.Nodup := List.Nodup.of_map _ hk

theorem Keyed.perm (hk : b.Keyed) (h : b'.registrations.Perm b.registrations) : b'.Keyed :=
  (h.map Registration.key).nodup_iff.2 hk

/-- Two orders of the registrations: a publish counts the same, leaves the same registrations, and
adds the same messages to every queue. -/
theorem publish_in_any_order (hk : b.Keyed) (hb : b'.registrations.Perm b.registrations)
    (topic : String) (message : Message) (qs : Queues) :
    b.Delivers topic message qs (b.publish topic message qs) ∧
    b.Delivers topic message qs (b'.publish topic message qs) ∧
    (b'.publish topic message qs).2.2 = (b.publish topic message qs).2.2 ∧
    (b'.publish topic message qs).1.registrations.Perm
      (b.publish topic message qs).1.registrations ∧
    (b'.publish topic message qs).2.1.map Queue.contents =
      (b.publish topic message qs).2.1.map Queue.contents := by
  have hk' : b'.Keyed := hk.perm hb
  have hd := publish_delivers hk topic message qs
  have hd' := (publish_delivers hk' topic message qs).perm hb
  have hpruned : (b.publish topic message qs).1.registrations.Nodup := hk.nodup.filter _
  have hpruned' : (b'.publish topic message qs).1.registrations.Nodup := hk'.nodup.filter _
  refine ⟨hd, hd', hd'.count.trans hd.count.symm, ?_, hd'.contents hd⟩
  exact (List.perm_ext_iff_of_nodup hpruned' hpruned).2 fun r => (hd'.kept r).trans (hd.kept r).symm

theorem publish_in_any_order_of_shared_queue :
    ∃ (b b' : Broker) (message : Message) (qs : Queues), b.Keyed ∧
      b'.registrations.Perm b.registrations ∧
      ((b.publish "channels/c1/messages/a" message qs).2.1.map fun q => q.items.map (·.token)) =
        [["channels/c1/messages/#"], []] ∧
      ((b'.publish "channels/c1/messages/a" message qs).2.1.map fun q => q.items.map (·.token)) =
        [["channels/c1/messages/a"], []] ∧
      (b'.publish "channels/c1/messages/a" message qs).2.2 =
        (b.publish "channels/c1/messages/a" message qs).2.2 ∧
      (b'.publish "channels/c1/messages/a" message qs).1.registrations.Perm
        (b.publish "channels/c1/messages/a" message qs).1.registrations ∧
      (b'.publish "channels/c1/messages/a" message qs).2.1.map Queue.contents =
        (b.publish "channels/c1/messages/a" message qs).2.1.map Queue.contents := by
  let all : Registration := ⟨"session:1", "channels/c1/messages/#", "channels/c1/messages/#", 0⟩
  let one : Registration := ⟨"session:1", "channels/c1/messages/a", "channels/c1/messages/a", 0⟩
  let left : Registration := ⟨"coap:dev", "t", "channels/c1/messages/a", 1⟩
  let message : Message := ⟨⟨"c1", by decide⟩, "a", ⟨"dev"⟩, .mqtt, [], 0⟩
  let qs : Queues := [{ capacity := 1 }, { capacity := 1, isOpen := false }]
  let b : Broker := ⟨[all, one, left]⟩
  let b' : Broker := ⟨[one, left, all]⟩
  have hk : b.Keyed := by
    rw [Keyed]
    decide
  have hb : b'.registrations.Perm b.registrations := by decide
  obtain ⟨-, -, hsame⟩ := publish_in_any_order hk hb "channels/c1/messages/a" message qs
  exact ⟨b, b', message, qs, hk, hb, by decide, by decide, hsame⟩

end Broker

end DeviceGateway
