import DeviceGateway.Proofs.Gateway.Lines
import DeviceGateway.Proofs.Session.Publishing
import DeviceGateway.Rehearsal.Poll

/-!
# A listener drains its sessions

A listener accepts connections until it is asked to stop, and has each served in a task of its own;
then it waits for those that still run, and cuts off what is left when its time is up. Whatever
goes on in the gateway meanwhile, it returns only after it was asked to stop and only when all that
it accepted has ended. Unless it had to cut, every session that it accepted has by then told its
whole story, and nothing of it is registered any more.
-/

namespace DeviceGateway
open Rehearsal (Listening)

structure Listener (ι : Type) where
  stage : Listening := .accepting
  served : List ι := []
  running : List ι := []
  result : Option (Except GatewayError Unit) := none

namespace Listener
variable {ι : Type} [DecidableEq ι]

inductive Sign (ι : Type)
  | accepted (k : ι)
  | failed
  | joined (k : ι)
  | heeded
  /-- The time to drain is up, and what still runs is cut off. -/
  | expired
  | returned (result : Except GatewayError Unit)

/-- What a listener does while `comes` are those that may come to it, `ended` are those whose task
has ended, and `stopping` says whether it is asked to stop. -/
inductive Step (comes ended : ι → Prop) (stopping : Bool) (l : Listener ι) :
    Sign ι → Listener ι → Prop
  | accept {k : ι} (hstage : l.stage = .accepting) (hk : comes k) (hnew : k ∉ l.served) :
      Step comes ended stopping l (.accepted k)
        { l with served := l.served ++ [k], running := l.running ++ [k] }
  | fail (hstage : l.stage = .accepting) : Step comes ended stopping l .failed l
  | join {k : ι} (hk : k ∈ l.running) (hend : ended k) :
      Step comes ended stopping l (.joined k) { l with running := l.running.erase k }
  | heed (hstage : l.stage = .accepting) (hstop : stopping = true) :
      Step comes ended stopping l .heeded { l with stage := .draining }
  | expire (hstage : l.stage = .draining) (hopen : l.result = none) :
      Step comes ended stopping l .expired { l with stage := .cutting }
  | ret (hstage : l.stage ≠ .accepting) (hdone : l.running = []) (hopen : l.result = none) :
      Step comes ended stopping l (.returned (.ok ())) { l with result := some (.ok ()) }

abbrev Goes (comes ended : ι → Prop) (stopping : Bool) : Listener ι → Listener ι → Prop :=
  Relation.ReflTransGen fun l l' => ∃ s, Step comes ended stopping l s l'

variable {comes ended : ι → Prop} {stopping : Bool} {l : Listener ι}

theorem goes_joined (ks : List ι) (hks : l.running = ks) (hend : ∀ k ∈ ks, ended k) :
    Goes comes ended stopping l { l with running := [] } := by
  induction ks generalizing l with
  | nil => rw [← hks]
  | cons k ks ih =>
    have hjoin : Step comes ended stopping l (.joined k) { l with running := ks } := by
      have hstep : Step comes ended stopping l (.joined k)
          { l with running := l.running.erase k } :=
        .join (by simp [hks]) (hend k List.mem_cons_self)
      rwa [hks, List.erase_cons_head] at hstep
    have hrest := @ih { l with running := ks } rfl fun j hj => hend j (List.mem_cons_of_mem k hj)
    exact .head ⟨_, hjoin⟩ hrest

theorem goes_returned (hstage : l.stage ≠ .accepting) (hopen : l.result = none)
    (hend : ∀ k ∈ l.running, ended k) :
    Goes comes ended stopping l { l with running := [], result := some (.ok ()) } :=
  (goes_joined l.running rfl hend).tail ⟨_, .ret hstage rfl hopen⟩

end Listener

namespace Rehearsal.World
open Listener

theorem goes_of_pollListen (w : World) (t : Task) (protocol : Protocol)
    (arrivals : List (Option Nat)) (children : List TaskId) (stage : Listening)
    (ht : t.aborted = false) (hbody : t.body = .listen protocol arrivals children stage)
    (hchildren : ∀ i ∈ children, i < w.nextTask) :
    ∃ l, Goes (w.nextTask ≤ ·) (w.isAlive · = false) w.stopping ⟨stage, children, children, none⟩ l ∧
      match l.result with
      | some r => w.pollListen t protocol arrivals children stage = w.finish t (.result r)
      | none => l.running = l.served ∧
          (w.pollListen t protocol arrivals children stage = w ∧ l.served = children ∧
            l.stage = stage ∨
          ∃ u rest timer, w.pollListen t protocol arrivals children stage =
            World.put u { t with
              body := .listen protocol rest l.served l.stage, timer := timer }) := by
  obtain ⟨id, name, body, timer, aborted⟩ := t
  cases ht
  cases hbody
  have hended : children.any w.isAlive ≠ true → ∀ i ∈ children, w.isAlive i = false := by
    intro hnone i hi
    simpa using List.any_eq_false.1 (Bool.eq_false_iff.2 hnone) i hi
  cases stage with
  | accepting =>
    by_cases hstop : w.stopping = true
    · refine ⟨_, .single ⟨_, .heed rfl hstop⟩, rfl, .inr ⟨w, arrivals, timer, ?_⟩⟩
      simp [pollListen, hstop]
    · rcases arrivals with _ | ⟨_ | device, rest⟩
      · exact ⟨_, .refl, rfl, .inl ⟨by simp [pollListen, hstop], rfl, rfl⟩⟩
      · refine ⟨_, .single ⟨_, .fail rfl⟩, rfl, .inr ⟨w, rest, timer, ?_⟩⟩
        simp [pollListen, hstop]
      · have hnew : w.nextTask ∉ children := fun hmem => Nat.lt_irrefl _ (hchildren _ hmem)
        refine ⟨_, .single ⟨_, .accept rfl (Nat.le_refl w.nextTask) hnew⟩, rfl, .inr
          ⟨(w.startServe none device protocol).1, rest, timer, ?_⟩⟩
        simp [pollListen, hstop]
        rfl
  | draining =>
    by_cases halive : children.any w.isAlive = true
    · by_cases hrung : w.hasRung
          ⟨id, name, .listen protocol arrivals children .draining, timer, false⟩ = true
      · refine ⟨_, .single ⟨_, .expire rfl rfl⟩, rfl, .inr ⟨w.abortAll children, arrivals, none, ?_⟩⟩
        simp [pollListen, halive, hrung]
      · refine ⟨_, .refl, rfl, .inr ⟨{ w with nextTimer := w.nextTimer + 1 }, arrivals,
          some ⟨Duration.due w.house.now w.limits.drainTimeout, w.nextTimer⟩, ?_⟩⟩
        simp [pollListen, halive, hrung, World.arm, World.put]
    · refine ⟨_, goes_returned (by simp) rfl (hended halive), ?_⟩
      simp [pollListen, halive]
  | cutting =>
    by_cases halive : children.any w.isAlive = true
    · exact ⟨_, .refl, rfl, .inl ⟨by simp [pollListen, halive], rfl, rfl⟩⟩
    · refine ⟨_, goes_returned (by simp) rfl (hended halive), ?_⟩
      simp [pollListen, halive]

end Rehearsal.World

structure ListeningGateway (ι κ : Type) where
  gateway : RunningGateway ι κ
  listener : Listener ι := {}
  stopping : Bool := false

inductive Beat (ι : Type)
  | gateway (m : Move ι)
  | listener (s : Listener.Sign ι)
  | stopRequested
  | controllerGone

namespace ListeningGateway
variable {ι κ : Type}

def Ended (w : ListeningGateway ι κ) (k : ι) : Prop := (w.gateway.lines k).standing ≠ .serving

def Shaky (l : Line) : Prop := ∃ secret f, l.serving.call? = some ⟨.identify secret, f⟩

/-- A connection of the listener does nothing before it was accepted, and its serving is not cut off
but by a crash or by the listener. -/
def Admits (mine : ι → Prop) (w : ListeningGateway ι κ) : Move ι → Prop
  | .line k act => mine k → k ∈ w.listener.served ∧
      (act = .cut → w.listener.stage = .cutting ∨ Shaky (w.gateway.lines k))
  | _ => True

inductive Step [DecidableEq ι] [DecidableEq κ] (g : Wiring ι) (mine : ι → Prop)
    (w : ListeningGateway ι κ) :
    Beat ι → ListeningGateway ι κ → Prop
  | gateway {m : Move ι} {v : RunningGateway ι κ} (hs : w.gateway.Step g m v)
      (hm : w.Admits mine m) :
      Step g mine w (.gateway m) { w with gateway := v }
  | listener {s : Listener.Sign ι} {l : Listener ι}
      (hs : w.listener.Step mine w.Ended w.stopping s l) :
      Step g mine w (.listener s) { w with listener := l }
  | stopRequested : Step g mine w .stopRequested { w with stopping := true }
  | controllerGone : Step g mine w .controllerGone { w with stopping := true }

inductive Run [DecidableEq ι] [DecidableEq κ] (g : Wiring ι) (mine : ι → Prop)
    (w₀ : ListeningGateway ι κ) :
    List (Beat ι × ListeningGateway ι κ) → ListeningGateway ι κ → Prop
  | start : Run g mine w₀ [] w₀
  | step {es : List (Beat ι × ListeningGateway ι κ)} {w v : ListeningGateway ι κ} {b : Beat ι}
      (hr : Run g mine w₀ es w)
      (hs : w.Step g mine b v) : Run g mine w₀ (es ++ [(b, v)]) v

def gateways (es : List (Beat ι × ListeningGateway ι κ)) : Trace ι κ :=
  es.filterMap fun e =>
    match e.1 with
    | .gateway m => some (m, e.2.gateway)
    | _ => none

def signs (es : List (Beat ι × ListeningGateway ι κ)) : List (Listener.Sign ι) :=
  es.filterMap fun e =>
    match e.1 with
    | .listener s => some s
    | _ => none

def accepted (es : List (Beat ι × ListeningGateway ι κ)) : List ι :=
  (signs es).filterMap fun
    | .accepted k => some k
    | _ => none

def Stopped (es : List (Beat ι × ListeningGateway ι κ)) : Prop :=
  ∃ e ∈ es, e.1 = .stopRequested ∨ e.1 = .controllerGone

end ListeningGateway

namespace Line
variable {owner : String} {queue : QueueId} {s t : Services} {l l' : Line} {act : Act}
variable {acts : List Act}

def Peaceful (l : Line) : Prop :=
  l.standing = .serving ∨ l.standing.isOver = true ∨
    ∃ outcome x, l.serving = .leaving outcome (.done x)

theorem Peaceful.after (hp : l.Peaceful) (hl : l.Sound owner queue acts)
    (hend : l.standing ≠ .serving) : Course.After owner (made acts) := by
  cases ho : l.standing.isOver with
  | true => exact hl.ended ho
  | false =>
    rcases hp with hserving | hover | ⟨outcome, x, hdone⟩
    · exact absurd hserving hend
    · rw [ho] at hover
      cases hover
    · exact hl.after ho (.closes hdone) (by rw [hdone]; rfl)

theorem Peaceful.step (hp : l.Peaceful) (hs : Step queue s l act t l')
    (hcut : act = .cut → ∀ x, l.serving.guarded? = some x → x.phase ≠ .connected) :
    l'.Peaceful := by
  have hbusy : l.standing.isOver = false → ∀ {c : Call} {k : c.Reply → Serving},
      l.serving.call? = some ⟨c, k⟩ → l.standing = .serving := by
    intro ho c k hc
    rcases hp with hserving | hover | ⟨outcome, x, hdone⟩
    · exact hserving
    · rw [ho] at hover
      cases hover
    · rw [hdone] at hc
      cases hc
  cases hs with
  | arrive m a hserving hw => exact .inl hserving
  | ask ho hc ha hn => exact .inl (hbusy ho hc)
  | hear ho hc ha ht => exact .inl (hbusy ho hc)
  | settle m hserving hw => exact .inl hserving
  | halt m hserving hx => exact .inl hserving
  | ret hserving hw => exact .inr (.inl rfl)
  | part hparting hw => exact .inr (.inl rfl)
  | drop ho hsus hg => exact .inr (.inl rfl)
  | @cut m hserving hsus x hg =>
    have hphase := hcut rfl x hg
    refine .inr (.inr ?_)
    simp only [Session.disconnect]
    cases hx : x.phase with
    | connected => exact absurd hx hphase
    | _ => exact ⟨_, _, rfl⟩

end Line

theorem Line.Run.untouched {st : Settings} {queue : QueueId} {l₀ l : Line}
    (hr : Line.Run st queue l₀ [] l) :
    l.serving = l₀.serving ∧ l.asked = l₀.asked ∧ l.standing = l₀.standing := by
  generalize has : ([] : List Act) = acts at hr
  induction hr with
  | start => exact ⟨rfl, rfl, rfl⟩
  | step => simp at has
  | write _ _ _ ih => exact ih has

namespace ListeningGateway
variable {ι κ : Type} [DecidableEq ι] [DecidableEq κ] {g : Wiring ι} {mine : ι → Prop}
variable {h₀ : RunningGateway ι κ} {w₀ w v : ListeningGateway ι κ}
  {es : List (Beat ι × ListeningGateway ι κ)} {b : Beat ι} {k : ι}

omit [DecidableEq ι] [DecidableEq κ] in
theorem gateways_concat (es : List (Beat ι × ListeningGateway ι κ)) (b : Beat ι)
    (v : ListeningGateway ι κ) :
    gateways (es ++ [(b, v)]) = gateways es ++
      (match b with | .gateway m => [(m, v.gateway)] | _ => []) := by
  rw [gateways, filterMap_concat, ← gateways]
  cases b <;> rfl

omit [DecidableEq ι] [DecidableEq κ] in
theorem signs_concat (es : List (Beat ι × ListeningGateway ι κ)) (b : Beat ι)
    (v : ListeningGateway ι κ) :
    signs (es ++ [(b, v)]) = signs es ++ (match b with | .listener s => [s] | _ => []) := by
  rw [signs, filterMap_concat, ← signs]
  cases b <;> rfl

theorem Run.gateway (hr : Run g mine w₀ es w) : w₀.gateway.Run g (gateways es) w.gateway := by
  induction hr with
  | start => exact .start
  | @step es w v b hr hs ih =>
    rw [gateways_concat]
    cases hs with
    | gateway hs hm => exact ih.step hs
    | _ => simpa using ih

theorem Run.step_at {before after : List (Beat ι × ListeningGateway ι κ)}
    {e : Beat ι × ListeningGateway ι κ}
    (hr : Run g mine w₀ es w) (hes : es = before ++ e :: after) :
    ∃ u, Run g mine w₀ before u ∧ u.Step g mine e.1 e.2 := by
  induction hr generalizing after with
  | start => simp at hes
  | @step es w v b hr hs ih =>
    rcases List.eq_nil_or_concat after with rfl | ⟨rest, e', rfl⟩
    · obtain ⟨rfl, he⟩ := List.append_inj' hes rfl
      cases he
      exact ⟨w, hr, hs⟩
    · rw [List.concat_eq_append, ← List.cons_append, ← List.append_assoc] at hes
      exact ih (List.append_inj' hes rfl).1

theorem Run.untouched (hb : h₀.Begins g) (hr : Run g mine { gateway := h₀ } es w)
    (hk : acts k (gateways es) = []) : ∃ protocol,
      (w.gateway.lines k).serving = .opening (.start (g.name k) protocol) ∧
      (w.gateway.lines k).asked = false ∧ (w.gateway.lines k).standing = .serving := by
  obtain ⟨protocol, hline⟩ := hb.lines k
  have hrun := hr.gateway.line k
  rw [hk] at hrun
  obtain ⟨hserving, hasked, hstanding⟩ := hrun.untouched
  exact ⟨protocol, by rw [hserving, hline], by rw [hasked, hline], by rw [hstanding, hline]⟩

structure Sound (mine : ι → Prop) (es : List (Beat ι × ListeningGateway ι κ))
    (w : ListeningGateway ι κ) : Prop where
  stopping : w.stopping = true → Stopped es
  heeded : w.listener.stage ≠ .accepting → w.stopping = true
  served : w.listener.served = accepted es
  nodup : w.listener.served.Nodup
  ours : ∀ k ∈ w.listener.served, mine k
  running : ∀ k ∈ w.listener.served, k ∈ w.listener.running ∨ w.Ended k
  unjoined : w.listener.running ⊆ w.listener.served
  idle : ∀ k, mine k → k ∉ w.listener.served → acts k (gateways es) = []
  cutting : w.listener.stage = .cutting → .expired ∈ signs es
  result : ∀ r, w.listener.result = some r →
    r = .ok () ∧ w.listener.stage ≠ .accepting ∧ w.listener.running = []
  peaceful : .expired ∉ signs es → ∀ k ∈ w.listener.served, (w.gateway.lines k).Peaceful

omit [DecidableEq κ] in
theorem sound_start : Sound mine [] ({ gateway := h₀ } : ListeningGateway ι κ) where
  stopping := by simp
  heeded := fun h => absurd rfl h
  served := rfl
  nodup := List.nodup_nil
  ours := by simp
  running := by simp
  unjoined := by simp
  idle := fun _ _ _ => rfl
  cutting := by simp
  result := by simp
  peaceful := by simp

omit [DecidableEq ι] [DecidableEq κ] in
theorem Stopped.append (h : Stopped es) (more : List (Beat ι × ListeningGateway ι κ)) :
    Stopped (es ++ more) := by
  obtain ⟨e, he, hstop⟩ := h
  exact ⟨e, List.mem_append_left more he, hstop⟩

theorem Sound.peaceful_gateway (h : Sound mine es w) (hb : h₀.Begins g)
    (hr : Run g mine { gateway := h₀ } es w) {m : Move ι} {v : RunningGateway ι κ}
      (hs : w.gateway.Step g m v)
    (hm : w.Admits mine m) (hdrain : .expired ∉ signs es) (hk : k ∈ w.listener.served) :
    (v.lines k).Peaceful := by
  have hp := h.peaceful hdrain k hk
  rcases hs.line_cases k with ⟨act, t, rfl, hline, -⟩ | ⟨-, hsame | ⟨-, writer, hwriter⟩⟩
  · refine hp.step hline fun hact x hx => ?_
    obtain ⟨-, hcut⟩ := hm (h.ours k hk)
    obtain ⟨secret, f, hc⟩ := (hcut hact).resolve_left fun hcutting => hdrain (h.cutting hcutting)
    obtain ⟨protocol, hopening⟩ := hb.lines k
    have hrun := hr.gateway.line k
    rw [hopening] at hrun
    exact hrun.unconnected_of_identify hc hx
  · rwa [hsame]
  · rwa [hwriter]

theorem Sound.gateway (h : Sound mine es w) (hb : h₀.Begins g)
    (hr : Run g mine { gateway := h₀ } es w) {m : Move ι} {v : RunningGateway ι κ}
      (hs : w.gateway.Step g m v)
    (hm : w.Admits mine m) :
    Sound mine (es ++ [(.gateway m, { w with gateway := v })]) { w with gateway := v } := by
  have hsigns : signs (es ++ [(.gateway m, { w with gateway := v })]) = signs es := by
    simp [signs_concat]
  refine
    { stopping := fun hstop => (h.stopping hstop).append _
      heeded := h.heeded
      served := by rw [accepted, hsigns]; exact h.served
      nodup := h.nodup
      ours := h.ours
      running := fun k hk => (h.running k hk).imp_right fun hend => ?_
      unjoined := h.unjoined
      idle := fun k hk hnew => ?_
      cutting := by rw [hsigns]; exact h.cutting
      result := h.result
      peaceful := fun hdrain k hk => h.peaceful_gateway hb hr hs hm (hsigns ▸ hdrain) hk }
  · rcases hs.line_cases k with ⟨act, t, rfl, hline, -⟩ | ⟨-, hsame | ⟨-, writer, hwriter⟩⟩
    · exact hline.standing_ne hend
    · rwa [Ended, hsame]
    · rwa [Ended, hwriter]
  · rw [gateways_concat, acts_concat, h.idle k hk hnew, List.nil_append]
    cases m with
    | line j act =>
      have hjk : j ≠ k := by
        rintro rfl
        exact hnew (hm hk).1
      simp [Move.act?, hjk]
    | _ => rfl

theorem Sound.listener (h : Sound mine es w) (hb : h₀.Begins g)
    (hr : Run g mine { gateway := h₀ } es w) {s : Listener.Sign ι} {l : Listener ι}
    (hs : w.listener.Step mine w.Ended w.stopping s l) :
    Sound mine (es ++ [(.listener s, { w with listener := l })]) { w with listener := l } := by
  have hsigns : signs (es ++ [(.listener s, { w with listener := l })]) = signs es ++ [s] := by
    simp [signs_concat]
  have hgateways : gateways (es ++ [(.listener s, { w with listener := l })]) = gateways es := by
    simp [gateways_concat]
  have haccepted : accepted (es ++ [(.listener s, { w with listener := l })]) =
      accepted es ++ (match s with | .accepted k => [k] | _ => []) := by
    rw [accepted, hsigns, filterMap_concat, ← accepted]
    cases s <;> rfl
  refine
    { stopping := fun hstop => (h.stopping hstop).append _
      heeded := ?_
      served := ?_
      nodup := ?_
      ours := ?_
      running := ?_
      unjoined := ?_
      idle := ?_
      cutting := ?_
      result := ?_
      peaceful := ?_ }
  · cases hs with
    | heed hstage hstop => exact fun _ => hstop
    | expire hstage hopen => exact fun _ => h.heeded (by simp [hstage])
    | _ => exact h.heeded
  · rw [haccepted, ← h.served]
    cases hs <;> simp
  · cases hs with
    | accept hstage hk hnew =>
      refine List.nodup_append.2 ⟨h.nodup, by simp, fun a ha c hc => ?_⟩
      rw [List.mem_singleton.1 hc]
      exact fun hak => hnew (hak ▸ ha)
    | _ => exact h.nodup
  · cases hs with
    | accept hstage hk hnew => exact List.forall_mem_append.2 ⟨h.ours, by simpa using hk⟩
    | _ => exact h.ours
  · intro j hj
    cases hs with
    | accept hstage hk hnew =>
      rcases List.mem_append.1 hj with hj | hj
      · exact (h.running j hj).imp_left (List.mem_append_left _)
      · exact .inl (List.mem_append_right _ hj)
    | @join k hk hend =>
      by_cases hjk : j = k
      · exact .inr (hjk ▸ hend)
      · exact (h.running j hj).imp_left (List.mem_erase_of_ne hjk).2
    | _ => exact h.running j hj
  · cases hs with
    | accept hstage hk hnew =>
      exact List.append_subset.2 ⟨List.subset_append_of_subset_left _ h.unjoined,
        List.subset_append_right _ _⟩
    | join hk hend => exact fun j hj => h.unjoined (List.mem_of_mem_erase hj)
    | _ => exact h.unjoined
  · intro j hj hnew
    rw [hgateways]
    refine h.idle j hj fun hmem => hnew ?_
    cases hs with
    | accept => exact List.mem_append_left _ hmem
    | _ => exact hmem
  · rw [hsigns]
    cases hs with
    | expire => exact fun _ => List.mem_append_right _ (List.mem_singleton_self _)
    | heed => simp
    | _ => exact fun hcutting => List.mem_append_left _ (h.cutting hcutting)
  · intro r hr
    cases hs with
    | accept hstage | fail hstage | heed hstage =>
      exact absurd hstage (h.result r hr).2.1
    | join hk =>
      obtain ⟨-, -, hnone⟩ := h.result r hr
      simp [hnone] at hk
    | expire hstage hopen =>
      rw [hopen] at hr
      cases hr
    | ret hstage hdone hopen =>
      cases hr
      exact ⟨rfl, hstage, hdone⟩
  · intro hdrain j hj
    rw [hsigns, List.mem_append, not_or] at hdrain
    cases hs with
    | @accept k hstage hk hnew =>
      rcases List.mem_append.1 hj with hj | hj
      · exact h.peaceful hdrain.1 j hj
      · rw [List.mem_singleton.1 hj]
        obtain ⟨protocol, -, -, hstanding⟩ := hr.untouched hb (h.idle k hk hnew)
        exact .inl hstanding
    | _ => exact h.peaceful hdrain.1 j hj

omit [DecidableEq κ] in
theorem Sound.stop (h : Sound mine es w) (hb : b = .stopRequested ∨ b = .controllerGone) :
    Sound mine (es ++ [(b, { w with stopping := true })]) { w with stopping := true } := by
  have hsigns : signs (es ++ [(b, { w with stopping := true })]) = signs es := by
    rcases hb with rfl | rfl <;> simp [signs_concat]
  have hgateways : gateways (es ++ [(b, { w with stopping := true })]) = gateways es := by
    rcases hb with rfl | rfl <;> simp [gateways_concat]
  refine
    { stopping := fun _ => ⟨_, List.mem_append_right _ (List.mem_singleton_self _), hb⟩
      heeded := fun _ => rfl
      served := by rw [accepted, hsigns]; exact h.served
      nodup := h.nodup
      ours := h.ours
      running := h.running
      unjoined := h.unjoined
      idle := by rw [hgateways]; exact h.idle
      cutting := by rw [hsigns]; exact h.cutting
      result := h.result
      peaceful := by rw [hsigns]; exact h.peaceful }

theorem Run.sound (hb : h₀.Begins g) (hr : Run g mine { gateway := h₀ } es w) :
    Sound mine es w := by
  induction hr with
  | start => exact sound_start
  | step hr hs ih =>
    cases hs with
    | gateway hs hm => exact ih.gateway hb hr hs hm
    | listener hs => exact ih.listener hb hr hs
    | stopRequested => exact ih.stop (.inl rfl)
    | controllerGone => exact ih.stop (.inr rfl)

def isFailure : Beat ι → Bool
  | .listener .failed => true
  | _ => false

theorem Run.unfailed (hr : Run g mine w₀ es w) :
    Run g mine w₀ (es.filter fun e => !isFailure e.1) w := by
  induction hr with
  | start => exact .start
  | @step es w v b hr hs ih =>
    rw [List.filter_append]
    cases hs with
    | gateway hs hm => exact ih.step (.gateway hs hm)
    | listener hs =>
      cases hs with
      | fail hstage => simpa [isFailure] using ih
      | accept hstage hk hnew => exact ih.step (.listener (.accept hstage hk hnew))
      | join hk hend => exact ih.step (.listener (.join hk hend))
      | heed hstage hstop => exact ih.step (.listener (.heed hstage hstop))
      | expire hstage hopen => exact ih.step (.listener (.expire hstage hopen))
      | ret hstage hdone hopen => exact ih.step (.listener (.ret hstage hdone hopen))
    | stopRequested => exact ih.step .stopRequested
    | controllerGone => exact ih.step .controllerGone

theorem Run.goes (hr : Run g mine w₀ es w) {l : Listener ι}
    (hl : Listener.Goes mine w.Ended w.stopping w.listener l) :
    ∃ more, Run g mine w₀ (es ++ more) { w with listener := l } := by
  induction hl with
  | refl => exact ⟨[], by simpa using hr⟩
  | tail _ hs ih =>
    obtain ⟨more, hmore⟩ := ih
    obtain ⟨s, hs⟩ := hs
    have hstep := hmore.step (.listener hs)
    rw [List.append_assoc] at hstep
    exact ⟨_, hstep⟩

theorem Run.path (hr : Run g mine w₀ es w) (hk : k ∈ w.listener.served) {as : List Act}
    {t : Services} {l : Line}
      (hp : Line.Path (g.queue k) w.gateway.services (w.gateway.lines k) as t l)
    (hcut : ∀ act ∈ as, act ≠ .cut) :
    ∃ more, Run g mine w₀ (es ++ more)
        { w with
          gateway :=
            { w.gateway with services := t, lines := Function.update w.gateway.lines k l } } ∧
      signs (es ++ more) = signs es ∧ acts k (gateways (es ++ more)) = acts k
        (gateways es) ++ as := by
  induction hp with
  | start => exact ⟨[], by simpa using hr, by simp, by simp⟩
  | @step as s t l l' act hp hs ih =>
    obtain ⟨hbefore, hlast⟩ := List.forall_mem_append.1 hcut
    obtain ⟨more, hmore, hsigns, hacts⟩ := ih hbefore
    have hadmits : Admits mine { w with
        gateway := { w.gateway with services := s, lines := Function.update w.gateway.lines k l } }
        (.line k act) := fun _ => ⟨hk, fun h => absurd h (hlast act (List.mem_singleton_self _))⟩
    have hstep := hmore.step (.gateway (.line k (by simpa using hs)) hadmits)
    simp only [Function.update_idem] at hstep
    rw [List.append_assoc] at hstep
    refine ⟨_, hstep, ?_, ?_⟩
    · rw [← List.append_assoc, signs_concat, hsigns, List.append_nil]
    · rw [← List.append_assoc, gateways_concat, acts_concat, hacts, List.append_assoc]
      simp [Move.act?]

structure Drains (g : Wiring ι) (mine : ι → Prop) (w₀ : ListeningGateway ι κ)
    (es : List (Beat ι × ListeningGateway ι κ)) (w : ListeningGateway ι κ) : Prop where
  result : ∀ {before e after r}, es = before ++ e :: after → e.1 = .listener (.returned r) →
    r = .ok () ∧ Stopped before
  failures : Run g mine w₀ (es.filter fun e => !isFailure e.1) w
  once : (accepted es).Nodup
  begins : ∀ {before e after k}, es = before ++ e :: after → e.1 = .listener (.accepted k) →
    acts k (gateways before) = [] ∧ ∃ protocol,
      (e.2.gateway.lines k).serving = .opening (.start (g.name k) protocol) ∧
      (e.2.gateway.lines k).asked = false ∧ (e.2.gateway.lines k).standing = .serving
  others : ∀ k, mine k → k ∉ accepted es → acts k (gateways es) = []
  ended : w.listener.result ≠ none → ∀ k ∈ accepted es, (w.gateway.lines k).standing ≠ .serving
  told : w.listener.result ≠ none → .expired ∉ signs es → ∀ k ∈ accepted es,
    (recorded (acts k (gateways es)) = [] ∨ ∃ changes,
      (recorded (acts k (gateways es))).map (·.operation) = .connect :: changes ++ [.disconnect] ∧
      ∀ o ∈ changes, o = .subscribe ∨ o = .unsubscribe) ∧
    ∀ r ∈ w.gateway.services.broker.registrations, r.owner ≠ g.owner k
  returns : w.listener.stage ≠ .accepting → w.listener.result = none →
    (∀ k ∈ accepted es, (w.gateway.lines k).standing ≠ .serving) →
    ∃ more v, Run g mine w₀ (es ++ more) v ∧ v.gateway = w.gateway ∧ v.listener.result = some
      (.ok ())

theorem Sound.told (h : Sound mine es w) (hb : h₀.Begins g) (hr : Run g mine { gateway := h₀ } es w)
    (hdrain : .expired ∉ signs es) (hk : k ∈ w.listener.served) (hend : w.Ended k) :
    (recorded (acts k (gateways es)) = [] ∨ ∃ changes,
      (recorded (acts k (gateways es))).map (·.operation) = .connect :: changes ++ [.disconnect] ∧
      ∀ o ∈ changes, o = .subscribe ∨ o = .unsubscribe) ∧
    ∀ r ∈ w.gateway.services.broker.registrations, r.owner ≠ g.owner k := by
  have hsound := hr.gateway.sound hb
  have hafter := (h.peaceful hdrain k hk).after (hsound.lines k) hend
  refine ⟨?_, fun r hmem howner => ?_⟩
  · rcases hafter with ⟨hnone, -⟩ | ⟨htold, -⟩
    · rw [operations_made] at hnone
      exact .inl (List.map_eq_nil_iff.1 hnone)
    · rw [operations_made] at htold
      exact .inr htold
  · rcases hsound.registered r hmem with ⟨⟨client, hclient⟩, -⟩ | ⟨j, hj⟩
    · exact g.owner_ne_observe k client (hclient.symm.trans howner)
    · have hjk := g.owner_inj (hj.stands.owner.symm.trans howner)
      subst hjk
      exact hj.not_after hafter

/-- However its connections, their sessions and all else in the gateway take turns, and whenever it
is asked to stop, a listener drains its sessions. -/
theorem drains_its_sessions (hb : h₀.Begins g) (hr : Run g mine { gateway := h₀ } es w) :
    Drains g mine { gateway := h₀ } es w := by
  have hs := hr.sound hb
  have gateway : w.listener.result ≠ none → ∀ k ∈ accepted es, w.Ended k := by
    intro hresult k hk
    obtain ⟨r, hr⟩ := Option.ne_none_iff_exists'.1 hresult
    obtain ⟨-, -, hnone⟩ := hs.result r hr
    refine (hs.running k (hs.served ▸ hk)).resolve_left ?_
    simp [hnone]
  refine
    { result := ?_
      failures := hr.unfailed
      once := hs.served ▸ hs.nodup
      begins := ?_
      others := fun k hk hnew => hs.idle k hk (hs.served ▸ hnew)
      ended := gateway
      told := fun hresult hdrain k hk =>
        hs.told hb hr hdrain (hs.served ▸ hk) (gateway hresult k hk)
      returns := ?_ }
  · intro before e after r hes he
    obtain ⟨u, hu, hstep⟩ := hr.step_at hes
    have hsound := hu.sound hb
    obtain ⟨b, v⟩ := e
    cases he
    cases hstep with
    | listener hs =>
      cases hs with
      | ret hstage hdone hopen => exact ⟨rfl, hsound.stopping (hsound.heeded hstage)⟩
  · intro before e after k hes he
    obtain ⟨u, hu, hstep⟩ := hr.step_at hes
    have hsound := hu.sound hb
    obtain ⟨b, v⟩ := e
    cases he
    cases hstep with
    | listener hs =>
      cases hs with
      | accept hstage hk hnew =>
        have hidle := hsound.idle k hk hnew
        have huntouched := hu.untouched hb hidle
        exact ⟨hidle, huntouched⟩
  · intro hstage hopen hended
    have hgoes : Listener.Goes mine w.Ended w.stopping w.listener
        { w.listener with running := [], result := some (.ok ()) } :=
      Listener.goes_returned hstage hopen fun k hk =>
          hended k (hs.served ▸ hs.unjoined hk)
    obtain ⟨more, hmore⟩ := hr.goes hgoes
    exact ⟨more, _, hmore, rfl, rfl⟩

theorem drains_its_sessions_of_single : ∃ (es : List (Beat Unit × ListeningGateway Unit Empty))
    (w : ListeningGateway Unit Empty), RunningGateway.single.Begins RunningGateway.singleWiring ∧
    Run RunningGateway.singleWiring (fun _ => True) { gateway := RunningGateway.single } es w ∧
    w.listener.result = some (.ok ()) ∧ accepted es = [()] ∧ .expired ∉ signs es ∧
    (recorded (acts () (gateways es))).map (·.operation) = [.connect, .disconnect] ∧
    Drains RunningGateway.singleWiring (fun _ => True)
      { gateway := RunningGateway.single } es w := by
  have hframe : Packet.ofFrame? (Packet.connect "a").frame = some (.connect "a") :=
    Packet.ofFrame?_frame _
  have hstart : Run RunningGateway.singleWiring (fun _ => True)
    ({ gateway := RunningGateway.single } : ListeningGateway Unit Empty) []
      { gateway := RunningGateway.single } := .start
  have haccepted := (hstart.step (.listener (.fail rfl))).step
    (.listener (.accept (k := ()) rfl trivial (by simp)))
  have hgreeting := Line.path_greeting 0 RunningGateway.single.services "1" .mqtt hframe
    (by decide) ⟨"a"⟩
    ⟨0, 0⟩
  obtain ⟨as, hr, hsigns, hacts⟩ := haccepted.path (k := ()) (by simp) hgreeting
    (by simp [Line.greeting, Line.answered, Call.isAwaited])
  rw [Function.update_eq_const_of_subsingleton] at hr
  have hheeded := (hr.step .stopRequested).step (.listener (.heed rfl rfl))
  have hreading : Line.Path 0 RunningGateway.single.services
      { serving := .reading RunningGateway.singleSession, writer := .idle }
        [] RunningGateway.single.services
      { serving := .reading RunningGateway.singleSession, writer := .idle } := .start
  have hleaving := (hreading.step (.arrive (fun _ => ⟨0, 0⟩) .stop rfl rfl)).step
    (.settle ⟨0, 0⟩ rfl rfl)
  have hswept := hleaving.call rfl rfl rfl (@Services.answers_of_answer _ _ 0 _ _ rfl)
  have hrecorded := hswept.call rfl rfl rfl (Services.answers_unchanged _ rfl
    (Except.ok () : Except EventError Unit))
  have hended := hrecorded.step (.ret rfl rfl)
  obtain ⟨bs, hr', hsigns', hacts'⟩ := hheeded.path (k := ()) (by simp) hended
    (by simp [Line.answered, Call.isAwaited])
  rw [Function.update_eq_const_of_subsingleton] at hr'
  have hjoined := hr'.step (.listener (.join (k := ()) (by simp) (by simp [Ended])))
  have hreturned := hjoined.step (.listener (.ret (by simp) (by simp) rfl))
  refine ⟨_, _, RunningGateway.begins_single, hreturned, rfl, ?_, ?_, ?_,
    drains_its_sessions RunningGateway.begins_single hreturned⟩
  · rw [accepted, signs_concat, signs_concat, hsigns', signs_concat, signs_concat, hsigns]
    rfl
  · rw [signs_concat, signs_concat, hsigns', signs_concat, signs_concat, hsigns]
    simp [signs]
  · rw [gateways_concat, gateways_concat, List.append_nil, List.append_nil, hacts', gateways_concat,
      gateways_concat, List.append_nil, List.append_nil, hacts]
    rfl

end ListeningGateway

end DeviceGateway
