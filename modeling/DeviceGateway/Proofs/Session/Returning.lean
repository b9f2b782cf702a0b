import DeviceGateway.Proofs.Session.Changes
import DeviceGateway.Proofs.Session.Life

/-!
# Work that is done to its end

`a.Returns v d x w` says that the work `a`, begun with the services `v`, returns `x`, having made
the calls of `d` and been given the replies there, and that `w` are the services then. Whatever
those that it waits for reply, it does return. What it has changed at the broker is the doing of the
calls that are over at once.
-/

namespace DeviceGateway

namespace Services.Answers
variable {v w : Services} {owner token filter : String}

theorem broker_eq {c : Call} {r : c.Reply} (h : v.Answers c r w) (hc : c.isAwaited = true) :
    w.broker = v.broker := by
  cases h with
  | awaited _ _ _ hbroker => exact hbroker
  | atOnce hnow => simp [hc] at hnow

theorem eq_answer {c : Call} {r : c.Reply} (h : v.Answers c r w) (hc : c.isAwaited = false) :
    ∃ now, v.answer now c = (w, .answer r) := by
  cases h with
  | awaited hawaited => simp [hc] at hawaited
  | atOnce _ h => exact ⟨_, h⟩

theorem register {entries : List (String × String)} {queue : QueueId}
    {r : (Call.register owner entries queue).Reply}
    (h : v.Answers (.register owner entries queue) r w) :
    w.broker = v.broker.registerAll owner entries queue := by
  obtain ⟨now, h⟩ := h.eq_answer rfl
  cases h
  rfl

theorem deregister {removed : (Call.deregister owner token).Reply}
    (h : v.Answers (.deregister owner token) removed w) :
    (w.broker, removed) = v.broker.deregister owner token := by
  obtain ⟨now, h⟩ := h.eq_answer rfl
  cases h
  rfl

theorem deregisterFilter {removed : (Call.deregisterFilter owner token filter).Reply}
    (h : v.Answers (.deregisterFilter owner token filter) removed w) :
    (w.broker, removed) = v.broker.deregisterFilter owner token filter := by
  obtain ⟨now, h⟩ := h.eq_answer rfl
  cases h
  rfl

end Services.Answers

namespace Activity
variable {σ α β ε : Type}

inductive Returns : Work σ α → Services → Dealings → α → Services → Prop
  | done (x : α) (v : Services) : Returns (.done x) v [] x v
  | call {s : σ} {c : Call} {k : c.Reply → Work σ α} {v u w : Services} {r : c.Reply}
      {d : Dealings} {x : α} (h : v.Answers c r u) (hk : Returns (k r) u d x w) :
      Returns (.call s c k) v (⟨c, r⟩ :: d) x w

variable {a : Work σ α} {v w : Services} {d : Dealings} {x : α} {y : β}

theorem Returns.reaches (h : a.Returns v d x w) : a.Reaches d (.done x) := by
  induction h with
  | done x v => exact .here _
  | call h hk ih => exact .answer _ ih

theorem Returns.result {P : Dealings → σ → Call → Prop} {Q : Dealings → α → Prop} {h : Dealings}
    (hr : a.Returns v d x w) (ha : a.Obeys P Q h) : Q (h ++ d) x :=
  ha.result hr.reaches

theorem returns_done_iff {x' : α} :
    (done x' : Work σ α).Returns v d x w ↔ d = [] ∧ x = x' ∧ w = v := by
  constructor
  · rintro ⟨⟩
    exact ⟨rfl, rfl, rfl⟩
  · rintro ⟨rfl, rfl, rfl⟩
    exact .done x w

theorem returns_call_iff {s : σ} {c : Call} {k : c.Reply → Work σ α} :
    (call s c k).Returns v d x w ↔
      ∃ r u d', d = ⟨c, r⟩ :: d' ∧ v.Answers c r u ∧ (k r).Returns u d' x w := by
  constructor
  · rintro ⟨⟩
    exact ⟨_, _, _, rfl, ‹_›, ‹_›⟩
  · rintro ⟨r, u, d', rfl, h, hk⟩
    exact .call h hk

theorem returns_bind_iff {f : α → Work σ β} :
    (a.bind f).Returns v d y w ↔
      ∃ d₁ d₂ x u, d = d₁ ++ d₂ ∧ a.Returns v d₁ x u ∧ (f x).Returns u d₂ y w := by
  constructor
  · intro h
    induction a generalizing v d with
    | done x => exact ⟨[], d, x, v, rfl, .done x v, h⟩
    | call s c k ih =>
      obtain ⟨r, u, d', rfl, hc, hk⟩ := returns_call_iff.1 h
      obtain ⟨d₁, d₂, x, u', rfl, ha, hf⟩ := ih r hk
      exact ⟨_, d₂, x, u', rfl, .call hc ha, hf⟩
  · rintro ⟨d₁, d₂, x, u, rfl, ha, hf⟩
    induction ha with
    | done x v => exact hf
    | call hc _ ih => exact .call hc (ih hf)

theorem returns_andThen_iff {f : α → Work σ (Except ε β)} {a : Work σ (Except ε α)}
    {y : Except ε β} :
    (a.andThen f).Returns v d y w ↔
      (∃ e, y = .error e ∧ a.Returns v d (.error e) w) ∨
      ∃ d₁ d₂ x u, d = d₁ ++ d₂ ∧ a.Returns v d₁ (.ok x) u ∧ (f x).Returns u d₂ y w := by
  rw [andThen, returns_bind_iff]
  constructor
  · rintro ⟨d₁, d₂, (e | x), u, rfl, ha, hf⟩
    · obtain ⟨rfl, rfl, rfl⟩ := returns_done_iff.1 hf
      exact .inl ⟨e, rfl, by simpa using ha⟩
    · exact .inr ⟨d₁, d₂, x, u, rfl, ha, hf⟩
  · rintro (⟨e, rfl, ha⟩ | ⟨d₁, d₂, x, u, rfl, ha, hf⟩)
    · exact ⟨d, [], .error e, w, by simp, ha, .done _ _⟩
    · exact ⟨d₁, d₂, .ok x, u, rfl, ha, hf⟩

/-- The replies that are waited for are those that `told` gives. -/
def Hears (told : (c : Call) → c.Reply) (d : Dealings) : Prop :=
  ∀ e ∈ d, e.1.isAwaited = true → e.2 = told e.1

theorem exists_answer (v : Services) (told : (c : Call) → c.Reply) (c : Call) :
    ∃ r u, v.Answers c r u ∧ (c.isAwaited = true → r = told c) := by
  by_cases hc : c.isAwaited = true
  · exact ⟨told c, v, v.answers_unchanged hc _, fun _ => rfl⟩
  · have hnow : c.isAwaited = false := by simpa using hc
    cases c with
    | register | deregister | deregisterFilter | deregisterOwner =>
      exact ⟨_, _, @Services.Answers.atOnce v _ hnow 0 _ _ rfl, fun h => absurd h hc⟩
    | _ => cases hnow

theorem exists_returns (told : (c : Call) → c.Reply) (a : Work σ α) (v : Services) :
    ∃ d x w, a.Returns v d x w ∧ Hears told d := by
  induction a generalizing v with
  | done x => exact ⟨[], x, v, .done x v, by simp [Hears]⟩
  | call s c k ih =>
    obtain ⟨r, u, hr, htold⟩ := exists_answer v told c
    obtain ⟨d, x, w, hk, hd⟩ := ih r u
    refine ⟨⟨c, r⟩ :: d, x, w, .call hr hk, fun e he => ?_⟩
    rcases List.mem_cons.1 he with rfl | he
    · exact htold
    · exact hd e he

theorem Returns.broker_eq (h : a.Returns v d x w) (hd : ∀ e ∈ d, e.1.isAwaited = true) :
    w.broker = v.broker := by
  induction h with
  | done x v => rfl
  | call hc _ ih =>
    obtain ⟨hawaited, hd⟩ := List.forall_mem_cons.1 hd
    exact (ih hd).trans (hc.broker_eq hawaited)

theorem Returns.keyed (h : a.Returns v d x w) (hk : v.broker.Keyed) : w.broker.Keyed := by
  induction h with
  | done x v => exact hk
  | call hc _ ih => exact ih (hc.keyed hk)

/-- Whatever it is told, the work returns, and `Q` holds of its calls, its result and the services
that it leaves. -/
structure Yields (a : Work σ α) (v : Services) (Q : Dealings → α → Services → Prop) : Prop where
  returns : ∀ told, ∃ d x w, a.Returns v d x w ∧ Hears told d
  right : ∀ d x w, a.Returns v d x w → Q d x w

theorem yields_iff {Q : Dealings → α → Services → Prop} :
    a.Yields v Q ↔ ∀ d x w, a.Returns v d x w → Q d x w :=
  ⟨Yields.right, fun h => ⟨fun told => exists_returns told a v, h⟩⟩

end Activity

end DeviceGateway
