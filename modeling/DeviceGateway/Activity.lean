/-! Work that calls on others. Each call waits for its reply, and what happens next depends on the
reply alone, so an activity says what is done under every behaviour of those called. While a call
is under way the activity shows a state: what is true of it should it never go on. -/

namespace DeviceGateway

/-- How a call ends: with an answer, or by a crash that ends the activity making it. -/
inductive Outcome (α : Type)
  | answer (a : α)
  | crash
  deriving DecidableEq

inductive Activity (σ C : Type) (R : C → Type) (α : Type)
  | done (a : α)
  | call (s : σ) (c : C) (k : R c → Activity σ C R α)

namespace Activity

variable {σ C α β W : Type} {R : C → Type}

def bind (f : α → Activity σ C R β) : Activity σ C R α → Activity σ C R β
  | done a => f a
  | call s c k => call s c fun r => (k r).bind f

def andThen {ε : Type} (f : α → Activity σ C R (Except ε β)) (a : Activity σ C R (Except ε α)) :
    Activity σ C R (Except ε β) :=
  a.bind fun
    | .ok x => f x
    | .error e => done (.error e)

/-- The activity against a world that ends every call at once: the world afterwards and the result,
or a crash. -/
def run (answer : W → (c : C) → W × Outcome (R c)) : W → Activity σ C R α → W × Outcome α
  | w, done a => (w, .answer a)
  | w, call _ c k =>
    match answer w c with
    | (w, .answer r) => (k r).run answer w
    | (w, .crash) => (w, .crash)

theorem bind_done (f : α → Activity σ C R β) (a : α) : (done a).bind f = f a := rfl

theorem run_bind (answer : W → (c : C) → W × Outcome (R c)) (f : α → Activity σ C R β)
    (a : Activity σ C R α) (w : W) :
    (a.bind f).run answer w =
      match a.run answer w with
      | (w, .answer x) => (f x).run answer w
      | (w, .crash) => (w, .crash) := by
  induction a generalizing w with
  | done a => rfl
  | call s c k ih =>
    simp only [bind, run]
    split
    · exact ih _ _
    · rfl

end Activity

end DeviceGateway
