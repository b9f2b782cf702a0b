import DeviceGateway.Proofs.Bus.FanOut
import Mathlib.Logic.Function.Basic

/-!
# Publishes that are cut in two

Any number of callers use one broker, and receivers come and go. A publish remembers, between its
fan-out and its pruning, the keys of the registrations whose queue it found closed, and others may
act in between. A registration that is pruned has no receiver any more, unless its key was
registered again after the fan-out; then it is the new registration that goes.
-/

namespace DeviceGateway

namespace Queues

def IsOpen (qs : Queues) (id : QueueId) : Prop := ∃ q, qs[id]? = some q ∧ q.isOpen = true

def IsClosed (qs : Queues) (id : QueueId) : Prop := ∃ q, qs[id]? = some q ∧ q.isOpen = false

variable {qs : Queues} {id : QueueId}

theorem isClosed_of_not_isOpen (hlt : id < qs.length) (h : ¬qs.IsOpen id) : qs.IsClosed id := by
  have hq : qs[id]? = some qs[id] := List.getElem?_eq_getElem hlt
  refine ⟨qs[id], hq, ?_⟩
  by_contra hopen
  exact h ⟨qs[id], hq, by simpa using hopen⟩

theorem IsOpen.not_isClosed (h : qs.IsOpen id) : ¬qs.IsClosed id := by
  obtain ⟨q, hq, hopen⟩ := h
  rintro ⟨q', hq', hclosed⟩
  obtain rfl := Option.some.inj (hq.symm.trans hq')
  rw [hopen] at hclosed
  cases hclosed

theorem isOpen_of_set {i : QueueId} {q q' : Queue} (hq : qs[i]? = some q)
    (hkeep : q'.isOpen = true → q.isOpen = true) (h : Queues.IsOpen (qs.set i q') id) :
    qs.IsOpen id := by
  obtain ⟨x, hx, hopen⟩ := h
  by_cases hi : i = id
  · subst hi
    rw [List.getElem?_set_self (List.getElem?_eq_some_iff.1 hq).1] at hx
    cases hx
    exact ⟨q, hq, hkeep hopen⟩
  · rw [List.getElem?_set_ne hi] at hx
    exact ⟨x, hx, hopen⟩

end Queues

theorem Queue.offer_ne_closed {q : Queue} (h : q.isOpen = true) (n : Notification) :
    (q.offer n).2 ≠ .closed := by
  simp only [offer, h]
  split
  · contradiction
  · split <;> simp

namespace Broker
variable {topic : String} {message : Message}

theorem isOpen_foldl_offer (rs : List Registration) (f : FanOut) (id : QueueId) :
    (rs.foldl (FanOut.offer topic message) f).queues.IsOpen id ↔ f.queues.IsOpen id := by
  simp only [Queues.IsOpen, getElem?_foldl_offer_queues, Option.map_eq_some_iff]
  constructor
  · rintro ⟨q', ⟨q, hq, rfl⟩, hopen⟩
    exact ⟨q, hq, by simpa only [Queue.offerAll_isOpen] using hopen⟩
  · rintro ⟨q, hq, hopen⟩
    exact ⟨_, ⟨q, hq, rfl⟩, by simpa only [Queue.offerAll_isOpen] using hopen⟩

theorem length_foldl_offer (rs : List Registration) (f : FanOut) :
    (rs.foldl (FanOut.offer topic message) f).queues.length = f.queues.length := by
  induction rs generalizing f with
  | nil => rfl
  | cons r rs ih =>
    rw [List.foldl_cons, ih, offer_queues]
    split
    · exact Queues.length_offer _ _ _
    · rfl

theorem mem_gone_of_offer {f : FanOut} {r : Registration} {k : String × String}
    (h : k ∈ (f.offer topic message r).gone) :
    k ∈ f.gone ∨ k = r.key ∧ ¬f.queues.IsOpen r.queue := by
  simp only [FanOut.offer] at h
  split at h
  · split at h
    · exact .inl h
    · exact .inl h
    · rename_i hreply
      rcases List.mem_append.1 h with h | h
      · exact .inl h
      · refine .inr ⟨List.mem_singleton.1 h, ?_⟩
        rintro ⟨q, hq, hopen⟩
        simp only [Queues.offer, hq] at hreply
        exact Queue.offer_ne_closed hopen _ hreply
  · exact .inl h

theorem mem_gone_of_foldl_offer {rs : List Registration} {f : FanOut} {k : String × String}
    (h : k ∈ (rs.foldl (FanOut.offer topic message) f).gone) :
    k ∈ f.gone ∨ ∃ r ∈ rs, k = r.key ∧ ¬f.queues.IsOpen r.queue := by
  induction rs generalizing f with
  | nil => exact .inl h
  | cons r rs ih =>
    rcases ih h with h | ⟨r', hr', hk, hshut⟩
    · rcases mem_gone_of_offer h with h | ⟨hk, hshut⟩
      · exact .inl h
      · exact .inr ⟨r, List.mem_cons_self, hk, hshut⟩
    · have hsame := @isOpen_foldl_offer topic message [r] f r'.queue
      exact .inr ⟨r', List.mem_cons_of_mem _ hr', hk, fun hopen => hshut (hsame.2 hopen)⟩

theorem Keyed.eq_of_key {b : Broker} (h : b.Keyed) {r s : Registration}
    (hr : r ∈ b.registrations) (hs : s ∈ b.registrations) (hk : r.key = s.key) : r = s :=
  List.inj_on_of_nodup_map h hr hs hk

theorem mem_registerAll_of_mem {b : Broker} {owner : String} {entries : List (String × String)}
    {queue : QueueId} {r : Registration} (hr : r ∈ b.registrations)
    (hk : ∀ e ∈ entries, r.key ≠ (owner, e.1)) :
    r ∈ (b.registerAll owner entries queue).registrations := by
  induction entries generalizing b with
  | nil => exact hr
  | cons e rest ih =>
    have hmem : r ∈ (b.register ⟨owner, e.1, e.2, queue⟩).registrations :=
      mem_register.2 (.inr ⟨hr, hk e List.mem_cons_self⟩)
    exact ih hmem fun e' he' => hk e' (List.mem_cons_of_mem _ he')

theorem mem_deregisterFilter_of_mem {b : Broker} (h : b.Keyed) {owner token filter : String}
    {r : Registration} (hr : r ∈ b.registrations)
    (hk : ¬(r.key = (owner, token) ∧ r.filter = filter)) :
    r ∈ (b.deregisterFilter owner token filter).1.registrations := by
  simp only [deregisterFilter]
  split
  · rename_i found hfound
    split
    · rename_i hfilter
      refine mem_erase.2 ⟨hr, fun hkey => hk ⟨hkey, ?_⟩⟩
      have hfoundKey : found.key = (owner, token) := by simpa using List.find?_some hfound
      rw [h.eq_of_key hr (List.mem_of_find?_eq_some hfound) (hkey.trans hfoundKey.symm)]
      exact hfilter
    · exact hr
  · exact hr

inductive Change
  | register (r : Registration)
  | registerAll (owner : String) (entries : List (String × String)) (queue : QueueId)
  | deregister (owner token : String)
  | deregisterFilter (owner token filter : String)
  | deregisterOwner (owner : String)

namespace Change

def apply (b : Broker) : Change → Broker
  | register r => b.register r
  | registerAll owner entries queue => b.registerAll owner entries queue
  | deregister owner token => (b.deregister owner token).1
  | deregisterFilter owner token filter => (b.deregisterFilter owner token filter).1
  | deregisterOwner owner => (b.deregisterOwner owner).1

def queue? : Change → Option QueueId
  | register r => some r.queue
  | registerAll _ _ queue => some queue
  | _ => none

def Registers : Change → String × String → Prop
  | register r, k => r.key = k
  | registerAll owner entries _, k => ∃ e ∈ entries, (owner, e.1) = k
  | _, _ => False

def Deregisters : Change → Registration → Prop
  | deregister owner token, r => r.key = (owner, token)
  | deregisterFilter owner token filter, r => r.key = (owner, token) ∧ r.filter = filter
  | deregisterOwner owner, r => r.owner = owner
  | _, _ => False

theorem keyed {b : Broker} (h : b.Keyed) (c : Change) : (c.apply b).Keyed := by
  cases c with
  | register r => exact h.register r
  | registerAll owner entries queue => exact h.registerAll owner entries queue
  | deregister owner token => exact h.filter _
  | deregisterFilter owner token filter => exact h.deregisterFilter owner token filter
  | deregisterOwner owner => exact h.filter _

theorem mem_of_mem {b : Broker} {c : Change} {r : Registration}
    (hr : r ∈ (c.apply b).registrations) :
    r ∈ b.registrations ∨ c.Registers r.key ∧ c.queue? = some r.queue := by
  cases c with
  | register r' =>
    rcases mem_register.1 hr with rfl | ⟨hr, -⟩
    · exact .inr ⟨rfl, rfl⟩
    · exact .inl hr
  | registerAll owner entries queue =>
    rcases mem_registerAll hr with hr | ⟨e, he, rfl⟩
    · exact .inl hr
    · exact .inr ⟨⟨e, he, rfl⟩, rfl⟩
  | deregister owner token => exact .inl (mem_of_mem_deregister hr)
  | deregisterFilter owner token filter => exact .inl (mem_of_mem_deregisterFilter hr)
  | deregisterOwner owner => exact .inl (mem_deregisterOwner.1 hr).1

theorem mem_apply {b : Broker} (h : b.Keyed) {c : Change} {r : Registration}
    (hr : r ∈ b.registrations) (hreg : ¬c.Registers r.key) (hder : ¬c.Deregisters r) :
    r ∈ (c.apply b).registrations := by
  cases c with
  | register r' => exact mem_register.2 (.inr ⟨hr, fun hk => hreg hk.symm⟩)
  | registerAll owner entries queue =>
    exact mem_registerAll_of_mem hr fun e he hk => hreg ⟨e, he, hk.symm⟩
  | deregister owner token => exact mem_erase.2 ⟨hr, hder⟩
  | deregisterFilter owner token filter => exact mem_deregisterFilter_of_mem h hr hder
  | deregisterOwner owner => exact mem_deregisterOwner.2 ⟨hr, hder⟩

end Change

end Broker

/-- What receivers do: a queue is made, loses its receiver, or is read. -/
inductive Queues.Turn (qs : Queues) : Queues → Prop
  | add (capacity : Nat) : Turn qs (qs.add capacity).1
  | close {id : QueueId} {q : Queue} (hq : qs[id]? = some q) : Turn qs (qs.set id q.close)
  | take {id : QueueId} {q q' : Queue} {n : Notification} (hq : qs[id]? = some q)
      (hn : q.take = some (n, q')) : Turn qs (qs.set id q')

namespace Queues.Turn
variable {qs qs' : Queues}

theorem length_le (h : qs.Turn qs') : qs.length ≤ qs'.length := by
  cases h with
  | add capacity => simp [Queues.add]
  | close hq => simp
  | take hq hn => simp

theorem isOpen (h : qs.Turn qs') {id : QueueId} (hlt : id < qs.length) (hopen : qs'.IsOpen id) :
    qs.IsOpen id := by
  cases h with
  | add capacity =>
    obtain ⟨q, hq, hq'⟩ := hopen
    refine ⟨q, ?_, hq'⟩
    simpa [Queues.add, List.getElem?_append_left hlt] using hq
  | close hq => exact isOpen_of_set hq (fun hc => by cases hc) hopen
  | take hq hn => exact isOpen_of_set hq (fun hc => (Queue.items_of_take hn).2 ▸ hc) hopen

end Queues.Turn

/-- A broker, the queues it sends to, and what the publish of each caller has found closed and not
yet pruned. -/
structure ConcurrentBroker where
  broker : Broker := {}
  queues : Queues := []
  found : Nat → List (String × String) := fun _ => []

namespace ConcurrentBroker

inductive Act
  | change (c : Broker.Change)
  | receive
  | fanOut (caller : Nat) (topic : String) (message : Message)
  | prune (caller : Nat)

/-- Only a queue that exists is registered, and a caller prunes what it found before it publishes
again. -/
inductive Step (s : ConcurrentBroker) : Act → ConcurrentBroker → Prop
  | change (c : Broker.Change) (hq : ∀ id ∈ c.queue?, id < s.queues.length) :
      Step s (.change c) { s with broker := c.apply s.broker }
  | receive {qs : Queues} (hq : s.queues.Turn qs) : Step s .receive { s with queues := qs }
  | fanOut (caller : Nat) (topic : String) (message : Message) (h : s.found caller = []) :
      Step s (.fanOut caller topic message) { s with
        queues := (s.broker.fanOut topic message s.queues).queues
        found := Function.update s.found caller (s.broker.fanOut topic message s.queues).gone }
  | prune (caller : Nat) :
      Step s (.prune caller) { s with
        broker := s.broker.prune (s.found caller)
        found := Function.update s.found caller [] }

inductive Run : List Act → ConcurrentBroker → Prop
  | start : Run [] {}
  | step {acts : List Act} {s t : ConcurrentBroker} {a : Act} (h : Run acts s) (hs : s.Step a t) :
      Run (acts ++ [a]) t

def Act.Registers : Act → String × String → Prop
  | .change c, k => c.Registers k
  | _, _ => False

def Act.Deregisters : Act → Registration → Prop
  | .change c, r => c.Deregisters r
  | _, _ => False

/-- Somebody registered under the key after the last fan-out of the caller. -/
def Renewed (acts : List Act) (caller : Nat) (k : String × String) : Prop :=
  ∃ before a after, acts = before ++ a :: after ∧ a.Registers k ∧
    ∀ topic message, .fanOut caller topic message ∉ after

variable {s t : ConcurrentBroker} {acts : List Act} {a : Act} {caller : Nat} {k : String × String}

theorem renewed_of_registers (h : a.Registers k) : Renewed (acts ++ [a]) caller k :=
  ⟨acts, a, [], rfl, h, by simp⟩

theorem Renewed.concat (h : Renewed acts caller k)
    (ha : ∀ topic message, a ≠ .fanOut caller topic message) : Renewed (acts ++ [a]) caller k := by
  obtain ⟨before, b, after, rfl, hb, hafter⟩ := h
  refine ⟨before, b, after ++ [a], by simp, hb, fun topic message hmem => ?_⟩
  rcases List.mem_append.1 hmem with hmem | hmem
  · exact hafter topic message hmem
  · exact ha topic message (List.mem_singleton.1 hmem).symm

theorem not_renewed {before after : List Act} (topic : String) (message : Message)
    (h : ∀ x ∈ after, ¬x.Registers k) :
    ¬Renewed (before ++ .fanOut caller topic message :: after) caller k := by
  rintro ⟨b, x, rest, heq, hx, hrest⟩
  rcases List.append_eq_append_iff.1 heq with ⟨l, hl, htail⟩ | ⟨l, hl, htail⟩
  · cases l with
    | nil =>
      cases htail
      exact hx
    | cons y l =>
      cases htail
      exact h x (by simp) hx
  · cases l with
    | nil =>
      cases htail
      exact hx
    | cons y l =>
      cases htail
      exact hrest topic message (by simp)

theorem Step.lost_cases (h : s.Step a t) (hk : s.broker.Keyed) {r : Registration}
    (hr : r ∈ s.broker.registrations) (hgone : r ∉ t.broker.registrations) :
    a.Deregisters r ∨ a.Registers r.key ∨ ∃ caller, a = .prune caller ∧ r.key ∈ s.found caller := by
  cases h with
  | change c hq =>
    by_contra hno
    obtain ⟨hder, hno⟩ := not_or.1 hno
    exact hgone (Broker.Change.mem_apply hk hr (not_or.1 hno).1 hder)
  | receive hq => exact absurd hr hgone
  | fanOut caller topic message h => exact absurd hr hgone
  | prune caller =>
    refine .inr (.inr ⟨caller, rfl, ?_⟩)
    by_contra hnot
    exact hgone (List.mem_filter.2 ⟨hr, by simpa using hnot⟩)

theorem Step.length_le (h : s.Step a t) : s.queues.length ≤ t.queues.length := by
  cases h with
  | change c hq => exact Nat.le_refl _
  | receive hq => exact hq.length_le
  | fanOut caller topic message h =>
    exact Nat.le_of_eq
      (Broker.length_foldl_offer s.broker.registrations { queues := s.queues }).symm
  | prune caller => exact Nat.le_refl _

theorem Step.isOpen (h : s.Step a t) {id : QueueId} (hlt : id < s.queues.length)
    (hopen : t.queues.IsOpen id) : s.queues.IsOpen id := by
  cases h with
  | change c hq => exact hopen
  | receive hq => exact hq.isOpen hlt hopen
  | fanOut caller topic message h => exact (Broker.isOpen_foldl_offer _ _ _).1 hopen
  | prune caller => exact hopen

structure Sound (acts : List Act) (s : ConcurrentBroker) : Prop where
  keyed : s.broker.Keyed
  known : ∀ r ∈ s.broker.registrations, r.queue < s.queues.length
  shut : ∀ caller, ∀ r ∈ s.broker.registrations, r.key ∈ s.found caller →
    ¬s.queues.IsOpen r.queue ∨ Renewed acts caller r.key

theorem Sound.step (hs : Sound acts s) (h : s.Step a t) : Sound (acts ++ [a]) t := by
  have hshut : ∀ {r : Registration}, r ∈ s.broker.registrations → ¬s.queues.IsOpen r.queue →
      ¬t.queues.IsOpen r.queue :=
    fun hr hnot hopen => hnot (h.isOpen (hs.known _ hr) hopen)
  -- What a caller found before an act stays found closed, unless the act is its own fan-out.
  have hold : ∀ {caller : Nat} {r : Registration}, r ∈ s.broker.registrations →
      r.key ∈ s.found caller → (∀ topic message, a ≠ .fanOut caller topic message) →
      ¬t.queues.IsOpen r.queue ∨ Renewed (acts ++ [a]) caller r.key := by
    intro caller r hr hfound ha
    rcases hs.shut caller r hr hfound with hnot | hrenewed
    · exact .inl (hshut hr hnot)
    · exact .inr (hrenewed.concat ha)
  have hlen := h.length_le
  cases h with
  | change c hq =>
    refine ⟨Broker.Change.keyed hs.keyed c, fun r hr => ?_, fun caller r hr hfound => ?_⟩
    · rcases Broker.Change.mem_of_mem hr with hr | ⟨-, hqueue⟩
      · exact hs.known r hr
      · exact hq r.queue hqueue
    · rcases Broker.Change.mem_of_mem hr with hr | ⟨hreg, -⟩
      · exact hold hr hfound (by simp)
      · exact .inr (renewed_of_registers hreg)
  | receive hq =>
    exact ⟨hs.keyed, fun r hr => Nat.lt_of_lt_of_le (hs.known r hr) hlen,
      fun caller r hr hfound => hold hr hfound (by simp)⟩
  | fanOut caller topic message h =>
    refine ⟨hs.keyed, fun r hr => Nat.lt_of_lt_of_le (hs.known r hr) hlen,
      fun other r hr hfound => ?_⟩
    by_cases ho : other = caller
    · subst ho
      simp only [Function.update_self] at hfound
      rcases Broker.mem_gone_of_foldl_offer hfound with hnil | ⟨r', hr', hkey, hnot⟩
      · cases hnil
      · obtain rfl := hs.keyed.eq_of_key hr hr' hkey
        exact .inl (hshut hr hnot)
    · simp only [Function.update_of_ne ho] at hfound
      refine hold hr hfound fun topic' message' he => ho ?_
      cases he
      rfl
  | prune caller =>
    refine ⟨hs.keyed.filter _, fun r hr => hs.known r (Broker.mem_of_mem_prune hr),
      fun other r hr hfound => ?_⟩
    by_cases ho : other = caller
    · subst ho
      simp at hfound
    · simp only [Function.update_of_ne ho] at hfound
      exact hold (Broker.mem_of_mem_prune hr) hfound (by simp)

theorem Run.sound (h : Run acts s) : Sound acts s := by
  induction h with
  | start => exact ⟨List.nodup_nil, by simp, by simp⟩
  | step h hs ih => exact ih.step hs

/-- Whatever stands under a key that was found closed is pruned. So a registration with a receiver
goes when it is deregistered or replaced, and also when it is pruned after its key was registered
again since the fan-out, and only then. -/
theorem open_pruned_iff_renewed (h : Run acts s) {r : Registration}
    (hr : r ∈ s.broker.registrations) :
    (∀ a t, s.Step a t → r ∉ t.broker.registrations → s.queues.IsOpen r.queue →
      a.Deregisters r ∨ a.Registers r.key ∨
        ∃ caller, a = .prune caller ∧ Renewed acts caller r.key) ∧
    ∀ caller t, s.Step (.prune caller) t →
      (r ∉ t.broker.registrations ↔ r.key ∈ s.found caller) ∧
      (r ∉ t.broker.registrations ∧ ¬s.queues.IsClosed r.queue ↔
        r.key ∈ s.found caller ∧ Renewed acts caller r.key ∧ s.queues.IsOpen r.queue) := by
  have hsound := h.sound
  refine ⟨fun a t hs hgone hopen => ?_, fun caller t hs => ?_⟩
  · rcases hs.lost_cases hsound.keyed hr hgone with hder | hreg | ⟨caller, ha, hfound⟩
    · exact .inl hder
    · exact .inr (.inl hreg)
    · have hrenewed := (hsound.shut caller r hr hfound).resolve_left fun hnot => hnot hopen
      exact .inr (.inr ⟨caller, ha, hrenewed⟩)
  · have hpruned : r ∉ t.broker.registrations ↔ r.key ∈ s.found caller := by
      cases hs
      simp [Broker.prune, hr]
    refine ⟨hpruned, fun ⟨hgone, hclosed⟩ => ?_, fun h => ⟨hpruned.2 h.1, h.2.2.not_isClosed⟩⟩
    have hfound := hpruned.1 hgone
    have hopen : s.queues.IsOpen r.queue := by
      by_contra hnot
      exact hclosed (Queues.isClosed_of_not_isOpen (hsound.known r hr) hnot)
    exact ⟨hfound, (hsound.shut caller r hr hfound).resolve_left fun hnot => hnot hopen, hopen⟩

def oldObserver : Registration := ⟨"coap:dev", "tok", "channels/c1/messages", 0⟩

def newObserver : Registration := { oldObserver with queue := 1 }

def reading : Message := ⟨⟨"c1", rfl⟩, "", ⟨"dev"⟩, .mqtt, [], 0⟩

def foundOld : List Act :=
  [.receive, .change (.register oldObserver), .receive, .fanOut 0 "channels/c1/messages" reading]

def observedAgain : List Act :=
  foundOld ++ [.receive] ++ [.change (.register newObserver)]

theorem run_foundOld : ∃ s, Run foundOld s ∧ s.broker.registrations = [oldObserver] ∧
    s.queues = [(⟨1, [], true, Nat.zero_le 1⟩ : Queue).close] ∧
    s.found 0 = [oldObserver.key] := by
  have hadded := Run.start.step (.receive (.add 1))
  have hregistered := hadded.step (.change (.register oldObserver) (by decide))
  have hclosed := hregistered.step (.receive (@Queues.Turn.close _ 0 _ rfl))
  have hfound := hclosed.step (.fanOut 0 "channels/c1/messages" reading rfl)
  exact ⟨_, hfound, rfl, rfl, rfl⟩

theorem run_observedAgain : ∃ s, Run observedAgain s ∧ newObserver ∈ s.broker.registrations ∧
    s.queues.IsOpen newObserver.queue ∧ s.found 0 = [newObserver.key] := by
  obtain ⟨s, hs, hregs, hqueues, hfound⟩ := run_foundOld
  have hadded := hs.step (.receive (.add 1))
  have hrenewed := hadded.step (.change (.register newObserver) (by simp [hqueues, Queues.add,
    Broker.Change.queue?, newObserver]))
  refine ⟨_, hrenewed, ?_, ?_, hfound⟩
  · simp [Broker.Change.apply, Broker.mem_register]
  · exact ⟨⟨1, [], true, Nat.zero_le 1⟩, by simp [hqueues, Queues.add, newObserver], rfl⟩

theorem open_pruned_iff_renewed_of_observers :
    (∃ s t, Run foundOld s ∧ s.Step (.prune 0) t ∧ oldObserver ∈ s.broker.registrations ∧
      oldObserver ∉ t.broker.registrations ∧ ¬Renewed foundOld 0 oldObserver.key ∧
      s.queues.IsClosed oldObserver.queue) ∧
    ∃ s t, Run observedAgain s ∧ s.Step (.prune 0) t ∧ newObserver ∈ s.broker.registrations ∧
      newObserver ∉ t.broker.registrations ∧ Renewed observedAgain 0 newObserver.key ∧
      s.queues.IsOpen newObserver.queue := by
  constructor
  · obtain ⟨s, hs, hregs, -, hfound⟩ := run_foundOld
    have hmem : oldObserver ∈ s.broker.registrations := by simp [hregs]
    obtain ⟨hgone, hopen⟩ := (open_pruned_iff_renewed hs hmem).2 0 _ (.prune 0)
    have hsplit : foundOld = [.receive, .change (.register oldObserver), .receive] ++
      .fanOut 0 "channels/c1/messages" reading :: [] := rfl
    have hstill : ¬Renewed foundOld 0 oldObserver.key := by
      rw [hsplit]
      exact not_renewed _ _ (by simp)
    have hlost := hgone.2 (by simp [hfound])
    exact ⟨s, _, hs, .prune 0, hmem, hlost, hstill, by
      by_contra hclosed
      exact hstill (hopen.1 ⟨hlost, hclosed⟩).2.1⟩
  · obtain ⟨s, hs, hmem, hopen, hfound⟩ := run_observedAgain
    obtain ⟨hgone, hlost⟩ := (open_pruned_iff_renewed hs hmem).2 0 _ (.prune 0)
    have hnew := hgone.2 (by simp [hfound])
    obtain ⟨-, hrenewed, -⟩ := hlost.1 ⟨hnew, hopen.not_isClosed⟩
    exact ⟨s, _, hs, .prune 0, hmem, hnew, hrenewed, hopen⟩

/-- A publish takes away a registration that has a receiver. -/
theorem open_registration_lost : ∃ s t, Run observedAgain s ∧ s.Step (.prune 0) t ∧
    newObserver ∈ s.broker.registrations ∧ newObserver ∉ t.broker.registrations ∧
    s.queues.IsOpen newObserver.queue := by
  obtain ⟨s, hs, hmem, hopen, hfound⟩ := run_observedAgain
  exact ⟨s, _, hs, .prune 0, hmem, by simp [Broker.prune, hfound], hopen⟩

end ConcurrentBroker

end DeviceGateway
