import DeviceGateway.Proofs.Bus.Deliveries
import Mathlib.Logic.Function.Basic

/-!
# Operations on a bus that are cut in two

Subscribe, publish and close look at or set the flag first and then, in a second step, do what they
do to the registry; others may act in between. A close is final exactly if no subscribe stands
between its two steps when the registry is emptied: one that does has found the bus open and
registers after the close, in a registry that nobody empties any more.
-/

namespace DeviceGateway.Bus

inductive Begun
  | subscribe (pattern : String)
  | publish (d : Delivery)
  | close

def begin (b : Bus) : Op → Bus × (Entry ⊕ Begun)
  | .subscribe pattern =>
    if b.isClosed then (b, .inl (.subscribed pattern (.error .closed)))
    else if !Subject.isPattern pattern then
      (b, .inl (.subscribed pattern (.error (.invalidSubject pattern))))
    else (b, .inr (.subscribe pattern))
  | .publish subject message =>
    if b.isClosed then (b, .inl (.published ⟨subject, message⟩ (.error .closed)))
    else if !Subject.isSubject subject then
      (b, .inl (.published ⟨subject, message⟩ (.error (.invalidSubject subject))))
    else (b, .inr (.publish ⟨subject, message⟩))
  | .receive id =>
    let (b, r) := b.receive id
    (b, .inl (.received id r))
  | .drop id => (b.drop id, .inl (.dropped id))
  | .close => (b.flag, .inr .close)

def finish (b : Bus) : Begun → Bus × Entry
  | .subscribe pattern =>
    let (b, id) := b.enroll pattern
    (b, .subscribed pattern (.ok id))
  | .publish d => (b.post d, .published d (.ok ()))
  | .close => (b.forget, .closed)

theorem perform_eq (b : Bus) (op : Op) :
    b.perform op =
      match b.begin op with
      | (c, .inl e) => (c, e)
      | (c, .inr p) => c.finish p := by
  cases op with
  | subscribe pattern =>
    simp only [perform, subscribe, begin]
    split
    · rfl
    · split <;> rfl
  | publish subject message =>
    simp only [perform, publish, begin]
    split
    · rfl
    · split <;> rfl
  | receive id => rfl
  | drop id => rfl
  | close => rfl

/-- Any number of callers at one bus, each with the operation it is in the middle of. -/
structure Concurrent (ι : Type) where
  bus : Bus := {}
  doing : ι → Option Begun := fun _ => none

variable {ι : Type} [DecidableEq ι]

namespace Concurrent

def begin (w : Concurrent ι) (k : ι) (op : Op) : Concurrent ι :=
  ⟨(w.bus.begin op).1, Function.update w.doing k (w.bus.begin op).2.getRight?⟩

def finish (w : Concurrent ι) (k : ι) (p : Begun) : Concurrent ι :=
  ⟨(w.bus.finish p).1, Function.update w.doing k none⟩

inductive Step (w : Concurrent ι) : Concurrent ι → Prop
  | begin {k : ι} (hk : w.doing k = none) (op : Op) : Step w (w.begin k op)
  | finish {k : ι} {p : Begun} (hk : w.doing k = some p) : Step w (w.finish k p)

abbrev Leads : Concurrent ι → Concurrent ι → Prop := Relation.ReflTransGen Step

def IsIdle (w : Concurrent ι) : Prop := ∀ k, w.doing k = none

/-- The registry is empty, and no subscription waits for more. -/
def IsOver (w : Concurrent ι) : Prop :=
  w.bus.registry = [] ∧ ∀ id, (w.bus.receive id).2 ≠ .pending

end Concurrent

variable {b : Bus} {w v : Concurrent ι} {k j : ι} {p : Begun} {op : Op}

theorem isClosed_begin (h : b.isClosed = true) (op : Op) : (b.begin op).1.isClosed = true := by
  cases op with
  | subscribe pattern => simp [begin, h]
  | publish subject message => simp [begin, h]
  | receive id => exact (isClosed_receive b id).trans h
  | drop id => exact h
  | close => rfl

theorem isClosed_finish (b : Bus) (p : Begun) : (b.finish p).1.isClosed = b.isClosed := by
  cases p with
  | subscribe pattern => rfl
  | publish d => exact isClosed_foldl_modify _ _ b
  | close => rfl

theorem begun_of_closed (h : b.isClosed = true) (hp : (b.begin op).2.getRight? = some p) :
    p = .close := by
  cases op with
  | subscribe pattern => simp [begin, h] at hp
  | publish subject message => simp [begin, h] at hp
  | receive id => simp [begin] at hp
  | drop id => simp [begin] at hp
  | close => simpa [begin] using hp.symm

theorem isClosed_of_begun_close (hp : (b.begin op).2.getRight? = some .close) :
    (b.begin op).1.isClosed = true := by
  cases op with
  | subscribe pattern =>
    simp only [begin] at hp
    split at hp
    · contradiction
    · split at hp <;> simp at hp
  | publish subject message =>
    simp only [begin] at hp
    split at hp
    · contradiction
    · split at hp <;> simp at hp
  | receive id => simp [begin] at hp
  | drop id => simp [begin] at hp
  | close => rfl

theorem registry_begin (h : b.registry = []) (op : Op) : (b.begin op).1.registry = [] := by
  cases op with
  | subscribe pattern =>
    simp only [begin]
    split
    · exact h
    · split <;> exact h
  | publish subject message =>
    simp only [begin]
    split
    · exact h
    · split <;> exact h
  | receive id => exact (registry_receive b id).trans h
  | drop id => simp [begin, drop, modify, h]
  | close => exact h

theorem registry_finish (h : b.registry = []) (hp : ∀ pattern, p ≠ .subscribe pattern) :
    (b.finish p).1.registry = [] := by
  cases p with
  | subscribe pattern => exact absurd rfl (hp pattern)
  | publish d => simp [finish, post, h]
  | close => rfl

theorem not_pending (h : b.registry = []) (id : SubscriptionId) :
    (b.receive id).2 ≠ .pending := by
  simp only [receive, h]
  split
  · simp
  · split <;> simp

namespace Concurrent

structure Sound (w : Concurrent ι) : Prop where
  flagged : ∀ k, w.doing k = some .close → w.bus.isClosed = true
  few : ∃ ks : List ι, ∀ k, w.doing k ≠ none → k ∈ ks

theorem doing_begin (h : (w.begin k op).doing j = some p) :
    j = k ∧ (w.bus.begin op).2.getRight? = some p ∨ w.doing j = some p := by
  by_cases hj : j = k
  · subst hj
    exact .inl ⟨rfl, by simpa [begin] using h⟩
  · exact .inr (by simpa [begin, hj] using h)

theorem doing_finish {q : Begun} (h : (w.finish k p).doing j = some q) :
    j ≠ k ∧ w.doing j = some q := by
  by_cases hj : j = k
  · simp [finish, hj] at h
  · exact ⟨hj, by simpa [finish, hj] using h⟩

theorem Sound.step (hs : w.Sound) (h : w.Step v) : v.Sound := by
  obtain ⟨ks, hks⟩ := hs.few
  cases h with
  | @begin k hk op =>
    refine ⟨fun j hj => ?_, k :: ks, fun j hj => ?_⟩
    · rcases doing_begin hj with ⟨rfl, hp⟩ | hj
      · exact isClosed_of_begun_close hp
      · exact isClosed_begin (hs.flagged j hj) op
    · obtain ⟨p, hp⟩ := Option.ne_none_iff_exists'.1 hj
      rcases doing_begin hp with ⟨rfl, -⟩ | hj
      · exact List.mem_cons_self
      · exact List.mem_cons_of_mem _ (hks j (by simp [hj]))
  | @finish k p hk =>
    refine ⟨fun j hj => ?_, ks, fun j hj => ?_⟩
    · exact (isClosed_finish _ _).trans (hs.flagged j (doing_finish hj).2)
    · obtain ⟨q, hq⟩ := Option.ne_none_iff_exists'.1 hj
      exact hks j (by simp [(doing_finish hq).2])

theorem Leads.sound (h : Leads w v) (hs : w.Sound) : v.Sound := by
  induction h with
  | refl => exact hs
  | tail _ hstep ih => exact ih.step hstep

omit [DecidableEq ι] in
theorem sound_empty : ({} : Concurrent ι).Sound := ⟨by simp, [], by simp⟩

/-- The bus is closed and empty, and nobody is about to register. -/
structure Final (w : Concurrent ι) : Prop where
  closed : w.bus.isClosed = true
  empty : w.bus.registry = []
  nobody : ∀ k pattern, w.doing k ≠ some (.subscribe pattern)

theorem Final.step (hw : w.Final) (h : w.Step v) : v.Final := by
  cases h with
  | @begin k hk op =>
    refine ⟨isClosed_begin hw.closed op, registry_begin hw.empty op, fun j pattern hj => ?_⟩
    rcases doing_begin hj with ⟨-, hp⟩ | hj
    · cases begun_of_closed hw.closed hp
    · exact hw.nobody j pattern hj
  | @finish k p hk =>
    refine ⟨(isClosed_finish _ _).trans hw.closed, ?_, fun j pattern hj => ?_⟩
    · refine registry_finish hw.empty fun pattern hp => ?_
      exact hw.nobody k pattern (hp ▸ hk)
    · exact hw.nobody j pattern (doing_finish hj).2

theorem Leads.final (h : Leads w v) (hw : w.Final) : v.Final := by
  induction h with
  | refl => exact hw
  | tail _ hstep ih => exact ih.step hstep

theorem leads_others (ks : List ι) (hks : ∀ i, i ≠ j → w.doing i ≠ none → i ∈ ks) :
    ∃ v, Leads w v ∧ v.doing j = w.doing j ∧ ∀ i, i ≠ j → v.doing i = none := by
  induction ks generalizing w with
  | nil =>
    refine ⟨w, .refl, rfl, fun i hi => ?_⟩
    by_contra hbusy
    exact List.not_mem_nil (hks i hi hbusy)
  | cons k ks ih =>
    by_cases hk : k = j ∨ w.doing k = none
    · refine ih fun i hi hbusy => ?_
      rcases List.mem_cons.1 (hks i hi hbusy) with rfl | hmem
      · rcases hk with hij | hnone
        · exact absurd hij hi
        · exact absurd hnone hbusy
      · exact hmem
    · obtain ⟨hkj, hbusy⟩ := not_or.1 hk
      obtain ⟨p, hp⟩ := Option.ne_none_iff_exists'.1 hbusy
      have hrest : ∀ i, i ≠ j → (w.finish k p).doing i ≠ none → i ∈ ks := by
        intro i hi hbusy
        obtain ⟨q, hq⟩ := Option.ne_none_iff_exists'.1 hbusy
        obtain ⟨hik, hdoing⟩ := doing_finish hq
        exact (List.mem_cons.1 (hks i hi (by simp [hdoing]))).resolve_left hik
      obtain ⟨v, hv, hsame, hothers⟩ := ih hrest
      refine ⟨v, (Relation.ReflTransGen.single (.finish hp)).trans hv, ?_, hothers⟩
      rw [hsame]
      simp [finish, Ne.symm hkj]

/-- A close that is about to empty the registry is final exactly if no subscribe has found the bus
open and is still to register. -/
theorem close_final_iff (hw : Leads {} w) (hk : w.doing k = some .close) :
    (∀ v, Leads (w.finish k .close) v → v.IsIdle → v.IsOver) ↔
      ∀ j pattern, w.doing j ≠ some (.subscribe pattern) := by
  have hs := hw.sound sound_empty
  constructor
  · intro hover j pattern hj
    have hjk : j ≠ k := by
      rintro rfl
      cases hk.symm.trans hj
    -- the slow subscribe comes last, when all others are done
    have hj' : (w.finish k .close).doing j = some (.subscribe pattern) := by
      simpa [finish, hjk] using hj
    obtain ⟨ks, hks⟩ := (hs.step (.finish hk)).few
    obtain ⟨v, hv, hsame, hothers⟩ := leads_others ks fun i _ hi => hks i hi
    rw [hj'] at hsame
    have hidle : (v.finish j (.subscribe pattern)).IsIdle := by
      intro i
      by_cases hi : i = j
      · simp [finish, hi]
      · simpa [finish, hi] using hothers i hi
    obtain ⟨hempty, -⟩ := hover _ (hv.tail (.finish hsame)) hidle
    simp [finish, Bus.finish, enroll] at hempty
  · intro hnobody v hv _
    have hfinal : (w.finish k .close).Final :=
      ⟨hs.flagged k hk, rfl, fun j pattern hj => hnobody j pattern (doing_finish hj).2⟩
    have hempty := (hv.final hfinal).empty
    exact ⟨hempty, not_pending hempty⟩

theorem close_final_iff_of_nobody :
    ∃ w : Concurrent Bool, Leads {} w ∧ w.doing true = some .close ∧ w.bus.registry = [0] ∧
      ∀ v, Leads (w.finish true .close) v → v.IsIdle → v.IsOver := by
  let opened : Concurrent Bool := ({} : Concurrent Bool).begin false (.subscribe "a")
  let busy : Concurrent Bool := opened.finish false (.subscribe "a")
  have hopened : Leads {} opened := .single (.begin rfl _)
  have hbusy : Leads {} busy := hopened.tail (.finish rfl)
  have hw : Leads {} (busy.begin true .close) := hbusy.tail (.begin rfl _)
  refine ⟨busy.begin true .close, hw, rfl, rfl, (close_final_iff hw rfl).2 ?_⟩
  intro j pattern hj
  cases j <;> cases hj

/-- The subscribe finds the bus open, the close comes and goes, and then the subscribe registers:
when all is done the bus is closed, and its subscription waits for what nobody can send. -/
theorem subscription_survives_close :
    ∃ w v : Concurrent Bool, Leads {} w ∧ w.doing true = some .close ∧
      Leads (w.finish true .close) v ∧ v.IsIdle ∧ v.bus.isClosed = true ∧ v.bus.registry = [0] ∧
      (v.bus.receive 0).2 = .pending := by
  let checked : Concurrent Bool := ({} : Concurrent Bool).begin false (.subscribe "a")
  let flagged : Concurrent Bool := checked.begin true .close
  let emptied : Concurrent Bool := flagged.finish true .close
  have hchecked : Leads {} checked := .single (.begin rfl _)
  have hflagged : Leads {} flagged := hchecked.tail (.begin rfl _)
  have hlate : Leads emptied (emptied.finish false (.subscribe "a")) := .single (.finish rfl)
  refine ⟨flagged, _, hflagged, rfl, hlate, ?_, rfl, rfl, rfl⟩
  intro k
  cases k <;> rfl

end Concurrent

end DeviceGateway.Bus
