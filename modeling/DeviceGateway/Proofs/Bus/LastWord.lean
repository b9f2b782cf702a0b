import DeviceGateway.Proofs.Bus.Pruning
import DeviceGateway.Proofs.Session.Surroundings
import Mathlib.Data.List.Induction

/-!
# The last word on a registration

A registration stands if some call made it and no call after that dropped it. A call only makes and
drops registrations of the owner that it names.
-/

namespace DeviceGateway

/-- Something in the log made it, and nothing after that dropped it. -/
def Lasts {α : Type} (makes drops : α → Prop) (log : List α) : Prop :=
  ∃ before a after, log = before ++ a :: after ∧ makes a ∧ ∀ b ∈ after, ¬drops b

section
variable {α β : Type} {makes drops makes' drops' : α → Prop} {log more : List α} {a : α}

theorem not_lasts (h : ∀ a ∈ log, ¬makes a) : ¬Lasts makes drops log := by
  rintro ⟨before, a, after, rfl, ha, -⟩
  exact h a (by simp) ha

theorem not_lasts_nil : ¬Lasts makes drops [] := not_lasts (by simp)

theorem lasts_exists {γ : Type} {makes : γ → α → Prop} :
    (∃ x, Lasts (makes x) drops log) ↔ Lasts (fun a => ∃ x, makes x a) drops log := by
  constructor
  · rintro ⟨x, before, a, after, heq, ha, hafter⟩
    exact ⟨before, a, after, heq, ⟨x, ha⟩, hafter⟩
  · rintro ⟨before, a, after, heq, ⟨x, ha⟩, hafter⟩
    exact ⟨x, before, a, after, heq, ha, hafter⟩

theorem lasts_concat :
    Lasts makes drops (log ++ [a]) ↔ makes a ∨ Lasts makes drops log ∧ ¬drops a := by
  constructor
  · rintro ⟨before, b, after, heq, hb, hafter⟩
    rcases List.eq_nil_or_concat after with rfl | ⟨after, c, rfl⟩
    · obtain ⟨-, rfl⟩ := List.concat_inj.1 (by simpa using heq)
      exact .inl hb
    · rw [List.concat_eq_append, ← List.cons_append, ← List.append_assoc] at heq
      obtain ⟨rfl, hlast⟩ := List.append_inj' heq rfl
      cases hlast
      exact .inr ⟨⟨before, b, after, rfl, hb, fun d hd => hafter d (by simp [hd])⟩,
        hafter _ (by simp)⟩
  · rintro (ha | ⟨⟨before, b, after, rfl, hb, hafter⟩, ha⟩)
    · exact ⟨log, a, [], rfl, ha, by simp⟩
    · refine ⟨before, b, after ++ [a], by simp, hb, fun d hd => ?_⟩
      rcases List.mem_append.1 hd with hd | hd
      · exact hafter d hd
      · exact List.mem_singleton.1 hd ▸ ha

theorem lasts_singleton : Lasts makes drops [a] ↔ makes a := by
  rw [← List.nil_append [a], lasts_concat]
  simp [not_lasts_nil]

theorem lasts_append : Lasts makes drops (log ++ more) ↔
    Lasts makes drops more ∨ Lasts makes drops log ∧ ∀ a ∈ more, ¬drops a := by
  induction more using List.reverseRecOn with
  | nil => simp [not_lasts_nil]
  | append_singleton more a ih =>
    rw [← List.append_assoc, lasts_concat, lasts_concat, ih, List.forall_mem_append]
    simp only [List.forall_mem_singleton]
    tauto

theorem lasts_flatMap {bs : List β} {f : β → List α} : Lasts makes drops (bs.flatMap f) ↔
    Lasts (fun b => Lasts makes drops (f b)) (fun b => ∃ a ∈ f b, drops a) bs := by
  induction bs using List.reverseRecOn with
  | nil => simp [not_lasts_nil]
  | append_singleton bs b ih =>
    rw [List.flatMap_append, lasts_append, lasts_concat, ih]
    simp

theorem lasts_congr (hm : ∀ a ∈ log, makes a ↔ makes' a)
    (hd : ∀ a ∈ log, ¬makes a → (drops a ↔ drops' a)) :
    Lasts makes drops log ↔ Lasts makes' drops' log := by
  induction log using List.reverseRecOn with
  | nil => simp [not_lasts_nil]
  | append_singleton log a ih =>
    rw [List.forall_mem_append, List.forall_mem_singleton] at hm hd
    rw [lasts_concat, lasts_concat, ih hm.1 hd.1, ← hm.2]
    by_cases ha : makes a
    · simp [ha]
    · rw [hd.2 ha]

end

namespace Broker
variable {b : Broker} {owner token filter : String} {r : Registration}

def Clear (entries : List (String × String)) : Prop :=
  ∀ e ∈ entries, ∀ e' ∈ entries, e.1 = e'.1 → e = e'

theorem mem_registerAll_iff {entries : List (String × String)} (hc : Clear entries)
    {queue : QueueId} : r ∈ (b.registerAll owner entries queue).registrations ↔
      (r.owner = owner ∧ (r.token, r.filter) ∈ entries ∧ r.queue = queue) ∨
        r ∈ b.registrations ∧ ¬(r.owner = owner ∧ ∃ e ∈ entries, e.1 = r.token) := by
  induction entries generalizing b with
  | nil => simp [registerAll]
  | cons e rest ih =>
    have hrest : Clear rest := fun e' he' e'' he'' =>
      hc e' (List.mem_cons_of_mem _ he') e'' (List.mem_cons_of_mem _ he'')
    change r ∈ ((b.register ⟨owner, e.1, e.2, queue⟩).registerAll owner rest
      queue).registrations ↔ _
    rw [ih hrest, mem_register]
    constructor
    · rintro (⟨ho, hmem, hq⟩ | ⟨rfl | ⟨hr, hk⟩, hnot⟩)
      · exact .inl ⟨ho, List.mem_cons_of_mem _ hmem, hq⟩
      · exact .inl ⟨rfl, List.mem_cons_self, rfl⟩
      · refine .inr ⟨hr, fun ⟨ho, e', he', htoken⟩ => ?_⟩
        rcases List.mem_cons.1 he' with rfl | he'
        · exact hk (by simp [Registration.key, ho, htoken])
        · exact hnot ⟨ho, e', he', htoken⟩
    · rintro (⟨rfl, hmem, rfl⟩ | ⟨hr, hnot⟩)
      · by_cases hlater : ∃ e' ∈ rest, e'.1 = r.token
        -- A later entry for the token is the same one.
        · obtain ⟨e', he', htoken⟩ := hlater
          have heq := hc _ hmem e' (List.mem_cons_of_mem _ he') htoken.symm
          exact .inl ⟨rfl, heq ▸ he', rfl⟩
        · have hhead : (r.token, r.filter) = e := by
            rcases List.mem_cons.1 hmem with heq | hmem
            · exact heq
            · exact absurd ⟨_, hmem, rfl⟩ hlater
          exact .inr ⟨.inl (by rw [← hhead]), fun ⟨_, hlast⟩ => hlater hlast⟩
      · refine .inr ⟨.inr ⟨hr, fun hk => ?_⟩, fun ⟨ho, e', he', htoken⟩ => ?_⟩
        · obtain ⟨ho, htoken⟩ := Prod.mk.inj hk
          exact hnot ⟨ho, e, List.mem_cons_self, htoken.symm⟩
        · exact hnot ⟨ho, e', List.mem_cons_of_mem _ he', htoken⟩

theorem mem_deregisterFilter_iff (h : b.Keyed) :
    r ∈ (b.deregisterFilter owner token filter).1.registrations ↔
      r ∈ b.registrations ∧ ¬(r.owner = owner ∧ r.token = token ∧ r.filter = filter) := by
  constructor
  · intro hr
    refine ⟨mem_of_mem_deregisterFilter hr, ?_⟩
    rintro ⟨ho, ht, hfilter⟩
    have hkey : r.key = (owner, token) := by simp [Registration.key, ho, ht]
    simp only [deregisterFilter] at hr
    split at hr
    · rename_i found hfound
      split at hr
      · exact (mem_erase.1 hr).2 hkey
      · rename_i hother
        have hfoundKey : found.key = (owner, token) := by simpa using List.find?_some hfound
        have heq := h.eq_of_key hr (List.mem_of_find?_eq_some hfound) (hkey.trans hfoundKey.symm)
        exact hother (heq ▸ hfilter)
    · rename_i hnone
      exact absurd hkey (by simpa using List.find?_eq_none.1 hnone r hr)
  · rintro ⟨hr, hnot⟩
    refine mem_deregisterFilter_of_mem h hr ?_
    rintro ⟨hkey, hfilter⟩
    obtain ⟨ho, ht⟩ := Prod.mk.inj hkey
    exact hnot ⟨ho, ht, hfilter⟩

end Broker

namespace Call

def owner? : Call → Option String
  | register owner _ _ | deregister owner _ | deregisterFilter owner _ _ | deregisterOwner owner =>
    some owner
  | _ => none

def Makes (r : Registration) : Call → Prop
  | register owner entries queue =>
    r.owner = owner ∧ (r.token, r.filter) ∈ entries ∧ r.queue = queue
  | _ => False

def Drops (r : Registration) : Call → Prop
  | register owner entries _ => r.owner = owner ∧ ∃ e ∈ entries, e.1 = r.token
  | deregister owner token => r.owner = owner ∧ r.token = token
  | deregisterFilter owner token filter => r.owner = owner ∧ r.token = token ∧ r.filter = filter
  | deregisterOwner owner => r.owner = owner
  | _ => False

structure Claims (owner : String) (P : QueueId → Prop) (c : Call) : Prop where
  owner : c.owner? = some owner
  register : ∀ o entries queue, c = .register o entries queue → P queue ∧ Broker.Clear entries

variable {c : Call} {r : Registration} {owner : String}

theorem Claims.queue {P : QueueId → Prop} (h : c.Claims owner P) (hm : c.Makes r) : P r.queue := by
  cases c with
  | register o entries queue =>
    obtain ⟨-, -, rfl⟩ := hm
    exact (h.register o entries _ rfl).1
  | _ => exact hm.elim

theorem not_makes_or_drops (hc : c.owner? ≠ some r.owner) : ¬c.Makes r ∧ ¬c.Drops r := by
  cases c <;> simp_all [owner?, Makes, Drops, eq_comm]

theorem not_makes_or_drops_of_isAwaited (hc : c.isAwaited = true) : ¬c.Makes r ∧ ¬c.Drops r := by
  cases c with
  | register | deregister | deregisterFilter | deregisterOwner => cases hc
  | _ => exact ⟨id, id⟩

end Call

theorem Services.Answers.mem_iff {s t : Services} {c : Call} {reply : c.Reply}
    (h : s.Answers c reply t) (hk : s.broker.Keyed)
    (hc : ∀ o entries queue, c = .register o entries queue → Broker.Clear entries)
    {r : Registration} : r ∈ t.broker.registrations ↔
      c.Makes r ∨ r ∈ s.broker.registrations ∧ ¬c.Drops r := by
  cases h with
  | awaited hawaited _ _ hbroker =>
    rw [hbroker]
    cases c with
    | register | deregister | deregisterFilter | deregisterOwner => cases hawaited
    | _ => simp [Call.Makes, Call.Drops]
  | atOnce hawaited h =>
    cases c with
    | register owner entries queue =>
      cases h
      exact Broker.mem_registerAll_iff (hc _ _ _ rfl)
    | deregister owner token =>
      cases h
      simp [Broker.mem_erase, Call.Makes, Call.Drops, Registration.key]
    | deregisterFilter owner token filter =>
      cases h
      simp only [Call.Makes, Call.Drops, false_or]
      exact Broker.mem_deregisterFilter_iff hk
    | deregisterOwner owner =>
      cases h
      simp only [Call.Makes, Call.Drops, false_or]
      exact Broker.mem_deregisterOwner
    | _ => cases hawaited

end DeviceGateway
