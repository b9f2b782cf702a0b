import DeviceGateway.Activity

/-!
# What an activity does under every reply

An activity obeys `P` and `Q` if `P` holds of every call that it makes, given the calls made before
and their replies, and `Q` holds of its result, whatever the replies are. Once proved, this says
what the activity calls and returns in any surroundings.
-/

namespace DeviceGateway

abbrev History (C : Type) (R : C → Type) := List (Σ c, R c)

namespace Activity
variable {σ C α β ε : Type} {R : C → Type}
variable {P P' : History C R → σ → C → Prop} {h : History C R}

def Obeys (P : History C R → σ → C → Prop) (Q : History C R → α → Prop) :
    History C R → Activity σ C R α → Prop
  | h, done a => Q h a
  | h, call s c k => P h s c ∧ ∀ r, Obeys P Q (h ++ [⟨c, r⟩]) (k r)

section
variable {Q Q' : History C R → α → Prop}

theorem obeys_done {a : α} : (done a : Activity σ C R α).Obeys P Q h ↔ Q h a := Iff.rfl

theorem obeys_call {s : σ} {c : C} {k : R c → Activity σ C R α} :
    (call s c k).Obeys P Q h ↔ P h s c ∧ ∀ r, (k r).Obeys P Q (h ++ [⟨c, r⟩]) := Iff.rfl

theorem Obeys.mono {a : Activity σ C R α} (ha : a.Obeys P Q h)
    (hP : ∀ h', h <+: h' → ∀ s c, P h' s c → P' h' s c)
    (hQ : ∀ h', h <+: h' → ∀ x, Q h' x → Q' h' x) : a.Obeys P' Q' h := by
  induction a generalizing h with
  | done x => exact hQ h (List.prefix_refl h) x ha
  | call s c k ih =>
    obtain ⟨hc, hk⟩ := ha
    refine ⟨hP h (List.prefix_refl h) s c hc, fun r => ih r (hk r) ?_ ?_⟩
    · exact fun h' hh' => hP h' ((List.prefix_append h _).trans hh')
    · exact fun h' hh' => hQ h' ((List.prefix_append h _).trans hh')

theorem Obeys.imp {a : Activity σ C R α} (ha : a.Obeys P Q h)
    (hQ : ∀ h', h <+: h' → ∀ x, Q h' x → Q' h' x) : a.Obeys P Q' h :=
  ha.mono (fun _ _ _ _ hc => hc) hQ

theorem Obeys.keep {I : History C R → Prop} {a : Activity σ C R α} (ha : a.Obeys P Q h) (hI : I h)
    (step : ∀ h s c r, P h s c → I h → I (h ++ [⟨c, r⟩])) :
    a.Obeys (fun h s c => P h s c ∧ I h) (fun h x => Q h x ∧ I h) h := by
  induction a generalizing h with
  | done x => exact ⟨ha, hI⟩
  | call s c k ih =>
    obtain ⟨hc, hk⟩ := ha
    exact ⟨⟨hc, hI⟩, fun r => ih r (hk r) (step h s c r hc hI)⟩

end

theorem obeys_bind {Q : History C R → β → Prop} {f : α → Activity σ C R β}
    {a : Activity σ C R α} :
    (a.bind f).Obeys P Q h ↔ a.Obeys P (fun h x => (f x).Obeys P Q h) h := by
  induction a generalizing h with
  | done x => exact Iff.rfl
  | call s c k ih => exact and_congr_right fun _ => forall_congr' fun r => ih r

theorem obeys_andThen {Q : History C R → Except ε β → Prop}
    {f : α → Activity σ C R (Except ε β)} {a : Activity σ C R (Except ε α)} :
    (a.andThen f).Obeys P Q h ↔
      a.Obeys P (fun h x =>
        match x with
        | .ok x => (f x).Obeys P Q h
        | .error e => Q h (.error e)) h := by
  rw [andThen, obeys_bind]
  constructor
  all_goals
    refine fun ha => ha.imp fun h' _ x hx => ?_
    cases x <;> exact hx

theorem run_keeps {W : Type} {answer : W → (c : C) → W × Outcome (R c)} {I : W → Prop}
    (hI : ∀ w c, I w → I (answer w c).1) (a : Activity σ C R α) {w : W} (hw : I w) :
    I (a.run answer w).1 := by
  induction a generalizing w with
  | done a => exact hw
  | call s c k ih =>
    have hc := hI w c hw
    rw [run]
    cases ha : answer w c with
    | mk w' o =>
      rw [ha] at hc
      cases o with
      | answer r => exact ih r hc
      | crash => exact hc

theorem run_agree {V W : Type} {answerV : V → (c : C) → V × Outcome (R c)}
    {answerW : W → (c : C) → W × Outcome (R c)} {Same : V → W → Prop}
    (hsame : ∀ v w c, Same v w →
      (answerV v c).2 = (answerW w c).2 ∧ Same (answerV v c).1 (answerW w c).1)
    (a : Activity σ C R α) {v : V} {w : W} (h : Same v w) :
    (a.run answerV v).2 = (a.run answerW w).2 ∧
      Same (a.run answerV v).1 (a.run answerW w).1 := by
  induction a generalizing v w with
  | done a => exact ⟨rfl, h⟩
  | call s c k ih =>
    obtain ⟨hreply, hnext⟩ := hsame v w c h
    rw [run, run]
    generalize answerV v c = rv, answerW w c = rw at hreply hnext
    obtain ⟨v', reply⟩ := rv
    obtain ⟨w', reply'⟩ := rw
    cases hreply
    cases reply with
    | answer r => exact ih r hnext
    | crash => exact ⟨rfl, hnext⟩

end Activity

end DeviceGateway
