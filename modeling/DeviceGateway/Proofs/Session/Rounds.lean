import DeviceGateway.Proofs.Activity.Reaches
import DeviceGateway.Proofs.Session.Path

/-!
# The rounds of a line

A line deals with one arrival after the other. A round is an arrival with the calls that were
answered while it was dealt with. Whatever the services are and do in between, the rounds of a line
are the work of its serving for one arrival after the other: each was done to its end before the
next began, and the last may still go on or have been broken off. All that is called besides is
what disconnecting calls.
-/

namespace DeviceGateway

structure Round where
  arrival : Arrival
  dealings : Dealings

def Round.calls (r : Round) : List Call := Dealings.calls r.dealings

/-- The rounds that are over, and the one that goes on; the last of those that are over may have
been broken off. -/
structure Rounds where
  past : List Round := []
  current : Option Round := none
  broken : Bool := false

namespace Rounds

def all (r : Rounds) : List Round := r.past ++ r.current.toList

def after (r : Rounds) : Act → Rounds
  | .arrive a => { r with past := r.all, current := some ⟨a, []⟩ }
  | .hear c x =>
    { r with current := r.current.map fun o => { o with dealings := o.dealings ++ [⟨c, x⟩] } }
  | .settle => { r with past := r.all, current := none }
  | .halt | .cut => { past := r.all, broken := true }
  | .ask _ | .finish => r

def ofActs (acts : List Act) : Rounds := acts.foldl after {}

theorem ofActs_concat (acts : List Act) (act : Act) :
    ofActs (acts ++ [act]) = (ofActs acts).after act := by
  rw [ofActs, ofActs, List.foldl_append]
  rfl

@[simp] theorem all_after_settle (r : Rounds) : (r.after .settle).all = r.all := by
  simp [after, all]

@[simp] theorem all_after_cut (r : Rounds) : (r.after .cut).all = r.all := by
  simp [after, all]

theorem broken_ofActs {acts : List Act} (h : (ofActs acts).broken = true) :
    .cut ∈ acts ∨ .halt ∈ acts := by
  suffices hall : ∀ r : Rounds, (acts.foldl after r).broken = true →
      r.broken = true ∨ .cut ∈ acts ∨ .halt ∈ acts from (hall {} h).resolve_left Bool.false_ne_true
  clear h
  induction acts with
  | nil => exact fun r h => .inl h
  | cons act acts ih =>
    intro r h
    rcases ih _ h with h | h | h
    · cases act with
      | cut => exact .inr (.inl List.mem_cons_self)
      | halt => exact .inr (.inr List.mem_cons_self)
      | _ => exact .inl h
    · exact .inr (.inl (List.mem_cons_of_mem _ h))
    · exact .inr (.inr (List.mem_cons_of_mem _ h))

end Rounds

def rounds (acts : List Act) : List Round := (Rounds.ofActs acts).all

/-- The serving `v₀` went through these rounds, each to its end, and waits again. -/
inductive Handled (st : Settings) (queue : QueueId) (v₀ : Serving) : List Round → Serving → Prop
  | start : Handled st queue v₀ [] v₀
  | round {rs : List Round} {v : Serving} (h : Handled st queue v₀ rs v) (hv : v.waits = true)
      (m : Moments) {a : Arrival} {w : Work Session (Session × Next)}
      (ha : v.arrive st m queue a = .working w) {d : Dealings} {x : Session} {next : Next}
      (hr : w.Reaches d (.done (x, next))) (hn : ∀ outcome, next ≠ .leave outcome) :
      Handled st queue v₀ (rs ++ [⟨a, d⟩]) (.reading x)

inductive Served (st : Settings) (queue : QueueId) (v₀ : Serving) : List Round → Serving → Prop
  | between {rs : List Round} {v : Serving} (h : Handled st queue v₀ rs v) (hv : v.waits = true) :
      Served st queue v₀ rs v
  | within {rs : List Round} {v : Serving} (h : Handled st queue v₀ rs v) (hv : v.waits = true)
      (m : Moments) {a : Arrival} {w : Work Session (Session × Next)}
      (ha : v.arrive st m queue a = .working w) {d : Dealings} {w' : Work Session (Session × Next)}
      (hr : w.Reaches d w') : Served st queue v₀ (rs ++ [⟨a, d⟩]) (.working w')

def Serving.Parts (v : Serving) (c : Call) : Prop :=
  ∃ x t, v.guarded? = some x ∧ x.Farewell t c

theorem Serving.arrive_of_waits {v : Serving} (hv : v.waits = true) (st : Settings) (m : Moments)
    (queue : QueueId) (a : Arrival) : ∃ w, v.arrive st m queue a = .working w := by
  rcases v with x | x | w | ⟨outcome, w⟩
  · exact ⟨_, rfl⟩
  · exact ⟨_, rfl⟩
  · cases hv
  · cases hv

theorem Serving.eq_call_of_working {w : Work Session (Session × Next)} {c : Call}
    {k : c.Reply → Serving} (hc : (working w).call? = some ⟨c, k⟩) :
    ∃ x k', w = .call x c k' ∧ k = fun r => working (k' r) := by
  cases w with
  | done x => cases hc
  | call x c' k' =>
    cases hc
    exact ⟨x, k', rfl, rfl⟩

theorem Serving.eq_call_of_leaving {outcome : Except GatewayError Unit} {w : Work Session Session}
    {c : Call} {k : c.Reply → Serving} (hc : (leaving outcome w).call? = some ⟨c, k⟩) :
    ∃ x k', w = .call x c k' ∧ k = fun r => leaving outcome (k' r) := by
  cases w with
  | done x => cases hc
  | call x c' k' =>
    cases hc
    exact ⟨x, k', rfl, rfl⟩

namespace Served
variable {st : Settings} {queue : QueueId} {v₀ : Serving} {rs : List Round} {r : Round}
variable {x : Session} {next : Next}

theorem hear {c : Call} {k : c.Reply → Work Session (Session × Next)}
    (h : Served st queue v₀ (rs ++ [r]) (.working (.call x c k))) (reply : c.Reply) :
    Served st queue v₀ (rs ++ [{ r with dealings := r.dealings ++ [⟨c, reply⟩] }])
      (.working (k reply)) := by
  generalize hrs : rs ++ [r] = rs' at h
  cases h with
  | between _ hv => cases hv
  | within hhandled hv m ha hr =>
    obtain ⟨rfl, rfl⟩ := List.concat_inj.1 (by simpa using hrs)
    exact .within hhandled hv m ha (hr.hear reply)

theorem settle (h : Served st queue v₀ rs (.working (.done (x, next))))
    (hn : ∀ outcome, next ≠ .leave outcome) : Handled st queue v₀ rs (.reading x) := by
  cases h with
  | between _ hv => cases hv
  | within hhandled hv m ha hr => exact hhandled.round hv m ha hr hn

end Served

namespace Line

/-- Acts on a line, in surroundings that may change at any time but for their settings. -/
inductive Run (st : Settings) (queue : QueueId) (l₀ : Line) : List Act → Line → Prop
  | start : Run st queue l₀ [] l₀
  | step {acts : List Act} {l l' : Line} (hr : Run st queue l₀ acts l) {s t : Services}
      (hst : s.settings = st) {act : Act} (hs : Step queue s l act t l') :
      Run st queue l₀ (acts ++ [act]) l'
  | write {acts : List Act} {l : Line} (hr : Run st queue l₀ acts l) (hw : l.writer ≠ .absent)
      (writer : Writer) : Run st queue l₀ acts { l with writer := writer }

def upcoming (l : Line) : List Call :=
  if l.asked || l.standing.isOver then [] else (l.serving.call?.map (·.1)).toList

/-- Where a line is after the rounds `r`, when `h` was heard and the calls `cs` were made. -/
inductive Situation (st : Settings) (queue : QueueId) (v₀ : Serving) (r : Rounds) (h : Dealings)
    (cs : List Call) (l : Line) : Prop
  | waiting (hr : r.current = none) (hw : l.serving.waits = true)
      (hp : Handled st queue v₀ r.all l.serving) (hh : h = r.all.flatMap Round.dealings)
      (hcs : cs = r.all.flatMap Round.calls)
  | working {o : Round} {w : Work Session (Session × Next)} (hr : r.current = some o)
      (hw : l.serving = .working w) (hp : Served st queue v₀ r.all (.working w))
      (hh : h = r.all.flatMap Round.dealings)
      (hcs : cs = r.all.flatMap Round.calls ++ l.serving.pending l.asked)
  | leaving {left : Serving} {x : Session} {outcome : Except GatewayError Unit}
      {w : Work Session Session} (h' : Dealings) (parting : List Call) (hr : r.current = none)
      (hw : l.serving = .leaving outcome w) (hp : Served st queue v₀ r.all left)
      (hx : left.guarded? = some x)
      (hend : (∃ outcome, left = .working (.done (x, .leave outcome))) ∨ r.broken = true)
      (hwork : w.Obeys (fun _ => x.Farewell) (fun _ _ => True) h')
      (hh : h = r.all.flatMap Round.dealings ++ h') (hheard : ∀ e ∈ h', left.Parts e.1)
      (hcs : cs = r.all.flatMap Round.calls ++ left.pending true ++ parting)
      (hparting : ∀ c ∈ parting, left.Parts c)

variable {st : Settings} {queue : QueueId} {v₀ : Serving} {l₀ l l' : Line} {acts : List Act}
variable {act : Act} {r : Rounds} {h : Dealings} {cs : List Call} {s t : Services}

theorem Run.sound {name : String} {protocol : Protocol}
    (hr : Run st queue { serving := .opening (.start name protocol) } acts l) :
    l.Sound (Session.start name protocol).owner queue acts := by
  induction hr with
  | start => exact sound_opening
  | step _ _ hs ih => exact ih.step hs
  | write _ hw writer ih => exact ih.setWriter hw writer

theorem obeys_farewell (x : Session) (m : Moment) (h : Dealings) :
    (x.disconnect st m).Obeys (fun _ => x.Farewell) (fun _ _ => True) h :=
  Session.disconnect_obeys.imp fun _ _ _ _ => trivial

namespace Situation

theorem arrive (hw : l.Situation st queue v₀ r h cs) (hwaits : l.serving.waits = true)
    (hasked : l.asked = false) (m : Moments) (a : Arrival) :
    ({ l with serving := l.serving.arrive st m queue a } : Line).Situation st queue v₀
      (r.after (.arrive a)) h cs := by
  obtain ⟨w, harrive⟩ := Serving.arrive_of_waits hwaits st m queue a
  cases hw with
  | waiting hr _ hp hh hcs =>
    refine .working (o := ⟨a, []⟩) rfl harrive (.within hp hwaits m harrive (.here w)) ?_ ?_
    · simp [hh, Rounds.after, Rounds.all]
    · simp [hcs, Rounds.after, Rounds.all, Serving.pending, hasked, Round.calls]
  | working _ hv => simp [hv, Serving.waits] at hwaits
  | leaving _ _ _ hv => simp [hv, Serving.waits] at hwaits

theorem ask (hw : l.Situation st queue v₀ r h cs) {c : Call} {k : c.Reply → Serving}
    (hc : l.serving.call? = some ⟨c, k⟩) (hn : l.asked = false) :
    ({ l with asked := true } : Line).Situation st queue v₀ r h (cs ++ [c]) := by
  cases hw with
  | waiting _ hwaits => simp [Serving.call?_of_waits hwaits] at hc
  | working hr hv hp hh hcs => exact .working hr hv hp hh (by simp [hcs, hn, Serving.pending, hc])
  | @leaving left x _ w h' parting hr hv hp hx hend hwork hh hheard hcs hparting =>
    rw [hv] at hc
    obtain ⟨t, k', rfl, -⟩ := Serving.eq_call_of_leaving hc
    refine .leaving h' (parting ++ [c]) hr hv hp hx hend hwork hh hheard (by simp [hcs]) ?_
    exact List.forall_mem_append.2 ⟨hparting, by simpa using ⟨x, t, hx, hwork.1⟩⟩

theorem hear (hw : l.Situation st queue v₀ r h cs) {c : Call} {k : c.Reply → Serving}
    (hc : l.serving.call? = some ⟨c, k⟩) (ha : l.asked = c.isAwaited) (reply : c.Reply) :
    ({ l with serving := k reply, asked := false } : Line).Situation st queue v₀
      (r.after (.hear c reply)) (h ++ [⟨c, reply⟩])
      (cs ++ (Act.hear c reply).made?.toList) := by
  cases hw with
  | waiting _ hwaits => simp [Serving.call?_of_waits hwaits] at hc
  | @working o w hr hv hp hh hcs =>
    rw [hv] at hc
    obtain ⟨x, k', rfl, rfl⟩ := Serving.eq_call_of_working hc
    have hall : r.all = r.past ++ [o] := by simp [Rounds.all, hr]
    have hnext : (r.after (.hear c reply)).all =
        r.past ++ [{ o with dealings := o.dealings ++ [⟨c, reply⟩] }] := by
      simp [Rounds.after, Rounds.all, hr]
    rw [hall] at hp
    refine .working (by rw [Rounds.after, hr]; rfl) rfl (by rw [hnext]; exact hp.hear reply) ?_ ?_
    · simp [hnext, hh, hall]
    · rw [hnext, hcs, hall, hv]
      -- Either the call was pending, or it is made only now.
      cases hawaited : c.isAwaited <;>
        simp [ha, hawaited, Act.made?, Serving.pending, Serving.call?, Round.calls]
  | @leaving left x _ w h' parting hr hv hp hx hend hwork hh hheard hcs hparting =>
    rw [hv] at hc
    obtain ⟨t, k', rfl, rfl⟩ := Serving.eq_call_of_leaving hc
    have hnext : (r.after (.hear c reply)).all = r.all := by simp [Rounds.after, Rounds.all, hr]
    have hparts : left.Parts c := ⟨x, t, hx, hwork.1⟩
    have hmade : ∀ c' ∈ (Act.hear c reply).made?.toList, left.Parts c' := by
      rw [Act.made?]
      cases c.isAwaited with
      | true => simp
      | false => simpa using hparts
    refine .leaving (h' ++ [⟨c, reply⟩]) (parting ++ (Act.hear c reply).made?.toList)
      (by rw [Rounds.after, hr]; rfl) rfl (by rwa [hnext]) hx hend (hwork.2 reply) ?_ ?_ ?_ ?_
    · simp [hh, hnext]
    · exact List.forall_mem_append.2 ⟨hheard, by simpa using hparts⟩
    · simp [hcs, hnext]
    · exact List.forall_mem_append.2 ⟨hparting, hmade⟩

theorem settle (hw : l.Situation st queue v₀ r h cs) {x : Session} {next : Next}
    (hwork : l.serving = .working (.done (x, next))) (m : Moment) (writer : Writer) :
    ({ l with serving := (Serving.settle st m x next).1, writer := writer } : Line).Situation
      st queue v₀ (r.after .settle) h cs := by
  cases hw with
  | waiting _ hwaits => simp [hwork, Serving.waits] at hwaits
  | leaving _ _ _ hv => simp [hwork] at hv
  | working hr hv hp hh hcs =>
    cases hwork.symm.trans hv
    have hcalls : cs = r.all.flatMap Round.calls := by
      simp [hcs, hwork, Serving.pending, Serving.call?]
    cases next with
    | begin | proceed =>
      have hhandled : Handled st queue v₀ (r.after .settle).all (.reading x) := by
        simpa using hp.settle (by simp)
      exact .waiting rfl rfl hhandled (by simp [hh]) (by simp [hcalls])
    | leave outcome =>
      exact .leaving [] [] rfl rfl (by simpa using hp) rfl (.inl ⟨outcome, rfl⟩)
        (obeys_farewell x m []) (by simp [hh]) (by simp)
        (by simp [hcalls, Serving.pending, Serving.call?]) (by simp)

theorem breakOff (hw : l.Situation st queue v₀ r h cs) (hsus : l.Suspended) {x : Session}
    (hg : l.serving.guarded? = some x) (m : Moment) (standing : Standing) :
    ({ l with serving := .leaving (.ok ()) (x.disconnect st m), asked := false,
              standing := standing } : Line).Situation st queue v₀
      { past := r.all, broken := true } h cs := by
  have hall : ({ past := r.all, broken := true } : Rounds).all = r.all := by simp [Rounds.all]
  cases hw with
  | waiting hr hwaits hp hh hcs =>
    exact .leaving [] [] rfl rfl (by rw [hall]; exact .between hp hwaits) hg (.inr rfl)
      (obeys_farewell x m []) (by simp [hh, hall]) (by simp)
      (by simp [hcs, hall, Serving.pending, Serving.call?_of_waits hwaits]) (by simp)
  | working hr hv hp hh hcs =>
    have hasked : l.asked = true := by
      cases hsus with
      | waits hwaits => simp [hv, Serving.waits] at hwaits
      | asked hasked => exact hasked
      | closes hcloses => simp [hv] at hcloses
    rw [hv] at hg
    exact .leaving [] [] rfl rfl (by rwa [hall]) hg (.inr rfl) (obeys_farewell x m [])
      (by simp [hh, hall]) (by simp) (by simp [hcs, hall, hv, hasked]) (by simp)
  | leaving _ _ _ hv =>
    rw [hv] at hg
    cases hg

theorem finish (hw : l.Situation st queue v₀ r h cs) (hg : l.serving.guarded? = none)
    (act : Act) (hall : (r.after act).all = r.all)
    (hcur : r.current = none → (r.after act).current = none)
    (hbroken : r.broken = true → (r.after act).broken = true) (asked : Bool)
    (standing : Standing) :
    ({ l with asked := asked, standing := standing } : Line).Situation st queue v₀ (r.after act) h
      cs := by
  obtain ⟨outcome, w, hleaving⟩ := Serving.guarded?_eq_none_iff.1 hg
  cases hw with
  | waiting _ hwaits => simp [hleaving, Serving.waits] at hwaits
  | working _ hv => simp [hleaving] at hv
  | leaving h' parting hr hv hp hx hend hobeys hh hheard hcs hparting =>
    exact .leaving h' parting (hcur hr) hv (by rwa [hall]) hx (hend.imp_right hbroken) hobeys
      (by rwa [hall]) hheard (by rwa [hall]) hparting

theorem step {owner : String} (hw : l.Situation st queue v₀ r h cs)
    (hsound : l.Sound owner queue acts) (hst : s.settings = st) (hs : Step queue s l act t l') :
    l'.Situation st queue v₀ (r.after act) (h ++ act.heard?.toList) (cs ++ act.made?.toList) := by
  subst hst
  cases hs with
  | arrive m a hserving hwaits =>
    have hasked := hsound.unasked (Serving.call?_of_waits hwaits)
    simpa [Act.heard?, Act.made?] using hw.arrive hwaits hasked m a
  | ask ho hc ha hn => simpa [Act.heard?, Act.made?, Rounds.after] using hw.ask hc hn
  | hear ho hc ha ht => exact hw.hear hc ha _
  | settle m hserving hwork => simpa [Act.heard?, Act.made?] using hw.settle hwork m _
  | ret hserving hwork =>
    simpa [Act.heard?, Act.made?] using
      hw.finish (hwork ▸ rfl) .finish rfl id id l.asked _
  | part hparting hwork =>
    simpa [Act.heard?, Act.made?] using hw.finish (hwork ▸ rfl) .finish rfl id id l.asked _
  | halt m hserving hx =>
    obtain ⟨hsus, hg⟩ := hx.suspended
    simpa [Act.heard?, Act.made?, Rounds.after] using hw.breakOff hsus hg m l.standing
  | cut m hserving hsus hg =>
    simpa [Act.heard?, Act.made?, Rounds.after] using hw.breakOff hsus hg m .parting
  | drop ho hsus hg =>
    simpa [Act.heard?, Act.made?] using
      hw.finish hg .cut r.all_after_cut (fun _ => rfl) (fun _ => rfl) false _

end Situation

theorem Run.situation {name : String} {protocol : Protocol}
    (hr : Run st queue { serving := .opening (.start name protocol) } acts l) :
    l.Situation st queue (.opening (.start name protocol)) (.ofActs acts) (heard acts)
      (made acts) := by
  induction hr with
  | start => exact .waiting rfl rfl .start rfl rfl
  | step hr hst hs ih =>
    rw [Rounds.ofActs_concat, heard_concat, made_concat]
    exact ih.step hr.sound hst hs
  | write _ _ writer ih =>
    cases ih with
    | waiting hr hw hp hh hcs => exact .waiting hr hw hp hh hcs
    | working hr hw hp hh hcs => exact .working hr hw hp hh hcs
    | leaving h' parting hr hw hp hx hend hwork hh hheard hcs hparting =>
      exact .leaving h' parting hr hw hp hx hend hwork hh hheard hcs hparting

theorem Situation.of_waits (hl : l.Situation st queue v₀ r h cs) (hw : l.serving.waits = true) :
    r.current = none ∧ Handled st queue v₀ r.all l.serving ∧ cs = r.all.flatMap Round.calls := by
  cases hl with
  | waiting hr _ hp _ hcs => exact ⟨hr, hp, hcs⟩
  | working _ hv => simp [hv, Serving.waits] at hw
  | leaving _ _ _ hv => simp [hv, Serving.waits] at hw

theorem Situation.calls_of_working (hl : l.Situation st queue v₀ r h cs)
    {w : Work Session (Session × Next)} (hw : l.serving = .working w) :
    cs = r.all.flatMap Round.calls ++ l.serving.pending l.asked := by
  cases hl with
  | waiting _ hv => simp [hw, Serving.waits] at hv
  | working _ _ _ _ hcs => exact hcs
  | leaving _ _ _ hv => simp [hw] at hv

theorem Run.account {name : String} {protocol : Protocol}
    (hr : Run st queue { serving := .opening (.start name protocol) } acts l) :
    ∃ left last parting, Served st queue (.opening (.start name protocol)) (rounds acts) left ∧
      heard acts = (rounds acts).flatMap Round.dealings ++ last ∧ (∀ e ∈ last, left.Parts e.1) ∧
      made acts ++ l.upcoming = (rounds acts).flatMap Round.calls ++ left.pending true ++ parting ∧
      ∀ c ∈ parting, left.Parts c := by
  cases hr.situation with
  | waiting hcur hw hp hh hcs =>
    refine ⟨l.serving, [], [], .between hp hw, by simpa [rounds] using hh, by simp, ?_, by simp⟩
    simp [hcs, upcoming, Serving.pending, Serving.call?_of_waits hw, rounds]
  | @working o w hcur hw hp hh hcs =>
    have hover : l.standing.isOver = false := by
      cases hserving : l.standing with
      | serving => rfl
      | _ =>
        have hnone := hr.sound.leaving (by simp [hserving])
        obtain ⟨outcome, w', hleaving⟩ := Serving.guarded?_eq_none_iff.1 hnone
        simp [hw] at hleaving
    refine ⟨.working w, [], [], hp, by simpa [rounds] using hh, by simp, ?_, by simp⟩
    rw [hcs, hw, upcoming, hw, hover]
    cases l.asked <;> simp [rounds, Serving.pending]
  | @leaving left x outcome w h' parting hcur hw hp hx hend hwork hh hheard hcs hparting =>
    refine ⟨left, h', parting ++ l.upcoming, hp, hh, hheard, ?_, ?_⟩
    · rw [hcs, List.append_assoc]
      rfl
    · refine List.forall_mem_append.2 ⟨hparting, fun c hc => ?_⟩
      rw [upcoming, hw] at hc
      cases w with
      | done x => simp [Serving.call?] at hc
      | call t c' k =>
        have heq : c = c' := by
          split at hc
          · cases hc
          · simpa [Serving.call?] using hc
        exact heq ▸ ⟨x, t, hx, hwork.1⟩

theorem upcoming_eq_nil (hl : l.Suspended ∨ l.standing.isOver = true) : l.upcoming = [] := by
  rw [upcoming]
  rcases hl with (hwaits | hasked | hcloses) | hover
  · simp [Serving.call?_of_waits hwaits]
  · simp [hasked]
  · simp [hcloses, Serving.call?]
  · simp [hover]

theorem Step.settings_eq (hs : Step queue s l act t l') : t.settings = s.settings := by
  cases hs with
  | hear _ _ _ ht => exact ht.settings
  | _ => rfl

theorem Run.path (hr : Run st queue l₀ acts l) (hst : s.settings = st) {as : List Act}
    (hp : Path queue s l as t l') : t.settings = st ∧ Run st queue l₀ (acts ++ as) l' := by
  induction hp with
  | start => exact ⟨hst, by rwa [List.append_nil]⟩
  | step _ hs ih =>
    obtain ⟨hsettings, hrun⟩ := ih
    refine ⟨hs.settings_eq.trans hsettings, ?_⟩
    rw [← List.append_assoc]
    exact hrun.step hsettings hs

end Line

end DeviceGateway
