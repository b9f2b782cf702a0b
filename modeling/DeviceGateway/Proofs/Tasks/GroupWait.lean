import DeviceGateway.TaskGroup
import Mathlib.Logic.Relation

/-!
# Waiting for a group of tasks

The tasks of a group end when they like, and they are asked to stop at any time, before anyone
waits for the group or while it is waited for. The wait joins those that have ended, in no
particular order, and cuts off the others once a grace period is over. It is prompt if no time
passes while there is something for it to do.
-/

namespace DeviceGateway

structure GroupWait where
  group : TaskGroup
  now : Nat := 0
  waiting : Bool := false

namespace GroupWait

inductive Occurrence
  | ended (id : Nat) (name : String) (e : TaskEnd)
  | stopRequested
  | begun
  | joined (name : String) (e : TaskEnd)
  | expired
  | passed (t : Nat)

def start (grace : Duration) (ids : List Nat) : GroupWait :=
  { group := { grace := grace, running := ids } }

inductive Step (w : GroupWait) : Occurrence → GroupWait → Prop
  | ended (id : Nat) (name : String) (e : TaskEnd) (hid : id ∈ w.group.running) :
      Step w (.ended id name e) { w with group := w.group.finish id name e }
  | stopRequested : Step w .stopRequested { w with group := w.group.requestStop }
  | begun (hw : w.waiting = false) :
      Step w .begun { w with group := w.group.await w.now, waiting := true }
  | joined (id : Nat) (name : String) (e : TaskEnd) (rest : List (Nat × String × TaskEnd))
      (hw : w.waiting = true) (hended : w.group.ended.Perm ((id, name, e) :: rest)) :
      Step w (.joined name e)
        { w with group := { w.group with ended := (id, name, e) :: rest }.join w.now }
  | expired (hw : w.waiting = true) : Step w .expired { w with group := w.group.expire w.now }
  | passed (t : Nat) : Step w (.passed t) { w with now := w.now + t }

inductive Run (v : GroupWait) : List Occurrence → GroupWait → Prop
  | here : Run v [] v
  | step {os : List Occurrence} {w u : GroupWait} {o : Occurrence} (h : Run v os w)
      (hstep : w.Step o u) : Run v (os ++ [o]) u

def IsOver (w : GroupWait) : Prop := w.waiting = true ∧ w.group.isOver = true

/-- A wait that has something to do does it before time passes. -/
def Prompt (w : GroupWait) : Occurrence → Prop
  | .passed t => w.waiting = true →
      w.IsOver ∨ w.group.ended = [] ∧ ∀ d ∈ w.group.deadline, w.now + t ≤ d
  | _ => True

def Occurrence.isOwn : Occurrence → Bool
  | joined .. | expired | passed _ => true
  | _ => false

abbrev Leads : GroupWait → GroupWait → Prop :=
  Relation.ReflTransGen fun w v => ∃ o, w.Step o v ∧ w.Prompt o

abbrev Proceeds : GroupWait → GroupWait → Prop :=
  Relation.ReflTransGen fun w v => ∃ o, w.Step o v ∧ w.Prompt o ∧ o.isOwn = true

/-- Whatever happens from now on, the wait is over at `latest`, and it gets there by itself. -/
def ReturnsBy (w : GroupWait) (latest : Nat) : Prop :=
  ∀ u, w.Leads u → u.IsOver ∨
    u.now ≤ latest ∧ ∃ z, u.Proceeds z ∧ z.IsOver ∧ z.now ≤ latest

def patience (w : GroupWait) : Nat := Duration.tick w.group.grace.nanos

variable {w v u z : GroupWait} {o : Occurrence} {os : List Occurrence} {latest : Nat}

theorem isOver_iff :
    w.IsOver ↔ w.waiting = true ∧ w.group.running = [] ∧ w.group.ended = [] := by
  simp [IsOver, TaskGroup.isOver]

theorem Leads.of_proceeds (h : w.Proceeds v) : w.Leads v :=
  Relation.ReflTransGen.mono (fun _ _ ⟨o, hstep, hprompt, _⟩ => ⟨o, hstep, hprompt⟩) w v h

theorem Leads.run (h : v.Leads w) : ∃ os, v.Run os w := by
  induction h with
  | refl => exact ⟨[], .here⟩
  | tail _ hstep ih =>
    obtain ⟨os, hos⟩ := ih
    obtain ⟨o, hstep, -⟩ := hstep
    exact ⟨_, hos.step hstep⟩

theorem ReturnsBy.mono {later : Nat} (h : w.ReturnsBy latest) (hle : latest ≤ later) :
    w.ReturnsBy later := by
  intro u hu
  rcases h u hu with hover | ⟨hnow, z, hz, hover, hznow⟩
  · exact .inl hover
  · exact .inr ⟨Nat.le_trans hnow hle, z, hz, hover, Nat.le_trans hznow hle⟩

theorem proceeds_expired {d : Nat} (hw : w.waiting = true) (hended : w.group.ended = [])
    (hd : w.group.deadline = some d) : ∃ z, w.Proceeds z ∧ z.IsOver ∧ z.now = max w.now d := by
  have hexpire : ∀ t, d ≤ t → (w.group.expire t).running = [] ∧ (w.group.expire t).ended = [] := by
    intro t ht
    simp [TaskGroup.expire, hended, hd, ht]
  by_cases hdue : d ≤ w.now
  · refine ⟨_, .single ⟨_, .expired hw, trivial, rfl⟩, isOver_iff.2 ⟨hw, hexpire _ hdue⟩, ?_⟩
    exact (Nat.max_eq_left hdue).symm
  · have hlate : w.now + (d - w.now) = d := by omega
    have hprompt : w.Prompt (.passed (d - w.now)) := by
      refine fun _ => .inr ⟨hended, fun d' hd' => ?_⟩
      rw [hd, Option.mem_some_iff] at hd'
      omega
    have hpass : w.Proceeds { w with now := w.now + (d - w.now) } :=
      .single ⟨_, .passed _, hprompt, rfl⟩
    refine ⟨_, hpass.tail ⟨_, .expired hw, trivial, rfl⟩, isOver_iff.2 ⟨hw, ?_⟩, ?_⟩
    · exact hexpire _ (Nat.le_of_eq hlate.symm)
    · simp only [hlate]
      omega

theorem proceeds_joined (hw : w.waiting = true) (hended : w.group.ended ≠ []) :
    ∃ u, w.Proceeds u ∧ u.waiting = true ∧ u.group.running = w.group.running ∧
      u.group.ended = [] ∧ u.now = w.now ∧ u.patience = w.patience ∧
      u.group.deadline = some (w.now + w.patience) := by
  generalize hn : w.group.ended = ended at hended
  induction ended generalizing w with
  | nil => exact absurd rfl hended
  | cons t rest ih =>
    obtain ⟨id, name, e⟩ := t
    have hjoin : w.Step (.joined name e)
        { w with group := { w.group with ended := (id, name, e) :: rest }.join w.now } :=
      .joined id name e rest hw (.of_eq hn)
    by_cases hrest : rest = []
    · subst hrest
      exact ⟨_, .single ⟨_, hjoin, trivial, rfl⟩, hw, rfl, rfl, rfl, rfl, rfl⟩
    · obtain ⟨u, hu, hend⟩ :=
        ih (w := { w with group := { w.group with ended := (id, name, e) :: rest }.join w.now })
          hw rfl hrest
      exact ⟨u, .head ⟨_, hjoin, trivial, rfl⟩ hu, hend⟩

/-- The wait will be over at `latest`: should all that still run end one after another, each as
late as it can, the grace period begins anew for every one of them but the last. -/
def Within (latest : Nat) (w : GroupWait) : Prop :=
  w.IsOver ∨ w.waiting = true ∧
    (w.group.ended ≠ [] ∧ w.now + w.patience * w.group.running.length ≤ latest ∨
      w.group.ended = [] ∧ ∃ d ∈ w.group.deadline,
        max w.now d + w.patience * (w.group.running.length - 1) ≤ latest)

theorem within_of_armed (hw : w.waiting = true) (hended : w.group.ended = [])
    (hd : w.group.deadline = some (w.now + w.patience))
    (hlate : w.now + w.patience * w.group.running.length ≤ latest) : w.Within latest := by
  by_cases hrun : w.group.running = []
  · exact .inl (isOver_iff.2 ⟨hw, hrun, hended⟩)
  · have hlast : w.patience * (w.group.running.length - 1) + w.patience =
        w.patience * w.group.running.length := by
      rw [← Nat.mul_succ, Nat.succ_eq_add_one, Nat.sub_add_cancel (List.length_pos_iff.2 hrun)]
    exact .inr ⟨hw, .inr ⟨hended, _, hd, by omega⟩⟩

theorem Within.finish (h : w.Within latest) {id : Nat} (hid : id ∈ w.group.running) (name : String)
    (e : TaskEnd) : Within latest { w with group := w.group.finish id name e } := by
  have hfewer : (w.group.running.filter (· != id)).length < w.group.running.length :=
    List.length_filter_lt_length_iff_exists.2 ⟨id, hid, by simp⟩
  have hless : w.patience * (w.group.running.filter (· != id)).length ≤
      w.patience * (w.group.running.length - 1) := Nat.mul_le_mul_left _ (by omega)
  have hmore : w.patience * (w.group.running.length - 1) ≤
      w.patience * w.group.running.length := Nat.mul_le_mul_left _ (Nat.sub_le _ 1)
  rcases h with hover | ⟨hw, hlate⟩
  · rw [(isOver_iff.1 hover).2.1] at hid
    cases hid
  · refine .inr ⟨hw, .inl ⟨by simp [TaskGroup.finish], ?_⟩⟩
    change w.now + w.patience * (w.group.running.filter (· != id)).length ≤ latest
    rcases hlate with ⟨-, hlate⟩ | ⟨-, d, -, hlate⟩
    · omega
    · omega

theorem Within.join (h : w.Within latest) (hw : w.waiting = true) {id : Nat} {name : String}
    {e : TaskEnd} {rest : List (Nat × String × TaskEnd)}
    (hperm : w.group.ended.Perm ((id, name, e) :: rest)) : Within latest
      { w with group := { w.group with ended := (id, name, e) :: rest }.join w.now } := by
  have hsome : w.group.ended ≠ [] := by
    intro hnil
    rw [hnil] at hperm
    exact absurd hperm.nil_eq (by simp)
  rcases h with hover | ⟨-, ⟨-, hlate⟩ | ⟨hnil, -⟩⟩
  · exact absurd (isOver_iff.1 hover).2.2 hsome
  · by_cases hrest : rest = []
    · exact within_of_armed hw hrest rfl hlate
    · exact .inr ⟨hw, .inl ⟨hrest, hlate⟩⟩
  · exact absurd hnil hsome

theorem Within.step (h : w.Within latest) (hstep : w.Step o v) (hprompt : w.Prompt o) :
    v.Within latest := by
  cases hstep with
  | ended id name e hid => exact h.finish hid name e
  | stopRequested => exact h
  | begun hidle =>
    have hw : w.waiting = true := by
      rcases h with hover | ⟨hw, -⟩
      · exact hover.1
      · exact hw
    rw [hidle] at hw
    cases hw
  | joined id name e rest hw hperm => exact h.join hw hperm
  | expired hw =>
    simp only [TaskGroup.expire]
    split
    · rename_i hdue
      exact .inl (isOver_iff.2 ⟨hw, rfl, List.isEmpty_iff.1 hdue.1⟩)
    · exact h
  | passed t =>
    rcases h with hover | ⟨hw, hlate⟩
    · exact .inl hover
    · rcases hprompt hw with hover | ⟨hnil, hbefore⟩
      · exact .inl hover
      · rcases hlate with ⟨hsome, -⟩ | ⟨-, d, hd, hlate⟩
        · exact absurd hnil hsome
        · have hd' := hbefore d hd
          refine .inr ⟨hw, .inr ⟨hnil, d, hd, ?_⟩⟩
          change max (w.now + t) d + w.patience * (w.group.running.length - 1) ≤ latest
          omega

theorem Within.leads (h : w.Within latest) (hlead : w.Leads v) : v.Within latest := by
  induction hlead with
  | refl => exact h
  | tail _ hstep ih =>
    obtain ⟨o, hstep, hprompt⟩ := hstep
    exact ih.step hstep hprompt

theorem Within.returnsBy (h : w.Within latest) : w.ReturnsBy latest := by
  intro u hu
  rcases h.leads hu with hover | ⟨hw, ⟨hsome, hlate⟩ | ⟨hnil, d, hd, hlate⟩⟩
  · exact .inl hover
  · obtain ⟨x, hx, hxw, hrunning, hended, hnow, -, hd⟩ := proceeds_joined hw hsome
    by_cases hrun : u.group.running = []
    · exact .inr ⟨by omega, x, hx, isOver_iff.2 ⟨hxw, hrunning.trans hrun, hended⟩, by omega⟩
    · obtain ⟨z, hz, hover, hznow⟩ := proceeds_expired hxw hended hd
      have hone : u.patience * 1 ≤ u.patience * u.group.running.length :=
        Nat.mul_le_mul_left _ (List.length_pos_iff.2 hrun)
      exact .inr ⟨by omega, z, hx.trans hz, hover, by omega⟩
  · obtain ⟨z, hz, hover, hnow⟩ := proceeds_expired hw hnil hd
    exact .inr ⟨by omega, z, hz, hover, by omega⟩

end GroupWait

end DeviceGateway
