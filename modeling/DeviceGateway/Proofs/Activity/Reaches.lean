import DeviceGateway.Proofs.Activity.Obeys

/-!
# How far an activity has come

`a.Reaches d b` says that `a` made the calls of `d`, was given the replies there, and has `b` left
to do. What an activity obeys carries over to what is left of it and to all calls that it made.
-/

namespace DeviceGateway.Activity
variable {σ C α β : Type} {R : C → Type}

inductive Reaches : Activity σ C R α → History C R → Activity σ C R α → Prop
  | here (a : Activity σ C R α) : Reaches a [] a
  | answer {s : σ} {c : C} {k : R c → Activity σ C R α} {d : History C R} {b : Activity σ C R α}
      (r : R c) (h : Reaches (k r) d b) : Reaches (call s c k) (⟨c, r⟩ :: d) b

variable {P : History C R → σ → C → Prop} {Q : History C R → α → Prop} {h d d' : History C R}
variable {a b : Activity σ C R α}

theorem Reaches.trans {b' : Activity σ C R α} (hab : a.Reaches d b) (hb : b.Reaches d' b') :
    a.Reaches (d ++ d') b' := by
  induction hab with
  | here a => exact hb
  | answer r _ ih => exact .answer r (ih hb)

theorem Reaches.hear {s : σ} {c : C} {k : R c → Activity σ C R α} (ha : a.Reaches d (call s c k))
    (r : R c) : a.Reaches (d ++ [⟨c, r⟩]) (k r) :=
  ha.trans (.answer r (.here _))

theorem Reaches.split (hr : a.Reaches (d ++ d') b) : ∃ a', a.Reaches d a' ∧ a'.Reaches d' b := by
  induction d generalizing a with
  | nil => exact ⟨a, .here a, hr⟩
  | cons e d ih =>
    cases hr with
    | answer r hr =>
      obtain ⟨a', ha, hb⟩ := ih hr
      exact ⟨a', .answer r ha, hb⟩

theorem reaches_done_iff {x : α} :
    (done x : Activity σ C R α).Reaches d b ↔ d = [] ∧ b = done x := by
  constructor
  · intro hr
    cases hr
    exact ⟨rfl, rfl⟩
  · rintro ⟨rfl, rfl⟩
    exact .here _

theorem reaches_call_iff {s : σ} {c : C} {k : R c → Activity σ C R α} :
    (call s c k).Reaches d b ↔
      d = [] ∧ b = call s c k ∨ ∃ r d', d = ⟨c, r⟩ :: d' ∧ (k r).Reaches d' b := by
  constructor
  · intro hr
    cases hr with
    | here => exact .inl ⟨rfl, rfl⟩
    | answer r hr => exact .inr ⟨r, _, rfl, hr⟩
  · rintro (⟨rfl, rfl⟩ | ⟨r, d', rfl, hr⟩)
    · exact .here _
    · exact .answer r hr

theorem Obeys.reaches (ha : a.Obeys P Q h) (hr : a.Reaches d b) : b.Obeys P Q (h ++ d) := by
  induction hr generalizing h with
  | here a => rwa [List.append_nil]
  | answer r _ ih =>
    have hb := ih (ha.2 r)
    rwa [List.append_assoc] at hb

theorem Obeys.result {x : α} (ha : a.Obeys P Q h) (hr : a.Reaches d (done x)) : Q (h ++ d) x :=
  ha.reaches hr

theorem Obeys.call {s : σ} {c : C} {k : R c → Activity σ C R α} (ha : a.Obeys P Q h)
    (hr : a.Reaches d (call s c k)) : P (h ++ d) s c :=
  (ha.reaches hr).1

theorem Obeys.of_mem (ha : a.Obeys P Q h) (hr : a.Reaches d b) {e : Σ c, R c} (he : e ∈ d) :
    ∃ before s, before ++ [e] <+: d ∧ P (h ++ before) s e.1 := by
  induction hr generalizing h with
  | here a => cases he
  | @answer s c k d b r _ ih =>
    rcases List.mem_cons.1 he with rfl | he
    · exact ⟨[], s, by simp, by simpa using ha.1⟩
    · obtain ⟨before, t, hbefore, hP⟩ := ih (ha.2 r) he
      refine ⟨⟨c, r⟩ :: before, t, List.cons_prefix_cons.2 ⟨rfl, hbefore⟩, ?_⟩
      rwa [List.append_assoc] at hP

end DeviceGateway.Activity
