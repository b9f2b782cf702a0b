import DeviceGateway.Proofs.Gateway.Isolation
import DeviceGateway.Proofs.Gateway.Lines
import DeviceGateway.Proofs.Session.Denied

/-!
# Denials leave no trace

Take from what a device says any of the packets to which it was answered that this is forbidden.
Then all that goes on in the gateway may go on as it did, but for the work on these packets: the
policy being the same, nobody else can tell that they ever came.
-/

namespace DeviceGateway

variable {ι κ : Type} [DecidableEq ι]

theorem Move.eq_line_of_act? {m : Move ι} {k : ι} {act : Act}
    (hm : m.act? k = some act) : m = .line k act := by
  cases m with
  | line j act' =>
    by_cases hjk : j = k
    · subst hjk
      simpa [Move.act?] using hm
    · simp [Move.act?, hjk] at hm
  | _ => cases hm

def received (k : ι) (tr : Trace ι κ) : List Packet := tr.filterMap fun e => e.1.frame? k

/-- The policy replies as `p` says, and neither it nor what sends a packet does anything else. -/
def Move.Conforms (p : ClientId → ChannelId → Action → Except AccessError Unit) (s t : Services) :
    Move ι → Prop
  | .line _ (.hear (.authorize client channel action) r) => r = p client channel action ∧ t = s
  | .line _ (.hear (.send _) _) => t = s
  | _ => True

namespace RunningGateway

/-- A run in which the policy is `p`. -/
inductive Governed [DecidableEq κ] (p : ClientId → ChannelId → Action → Except AccessError Unit)
    (g : Wiring ι) (w₀ : RunningGateway ι κ) : Trace ι κ → RunningGateway ι κ → Prop
  | start : Governed p g w₀ [] w₀
  | step {tr : Trace ι κ} {w v : RunningGateway ι κ} {m : Move ι} (hr : Governed p g w₀ tr w)
      (hs : Step g w m v) (hm : m.Conforms p w.services v.services) :
      Governed p g w₀ (tr ++ [(m, v)]) v

/-- At most the task that serves the line `k` is elsewhere. -/
structure Beside (k : ι) (w w' : RunningGateway ι κ) : Prop where
  services : w'.services = w.services
  lines : ∀ j, j ≠ k → w'.lines j = w.lines j
  writer : (w'.lines k).writer = (w.lines k).writer
  standing : (w'.lines k).standing = (w.lines k).standing
  watches : w'.watches = w.watches
  relay : w'.relay = w.relay

/-- The run `tr'` is the run `tr` without what happened on the line `k` in the rounds `D`. -/
inductive Spares (k : ι) (D : Finset ℕ) : Trace ι κ → Trace ι κ → Prop
  | start : Spares k D [] []
  | skip {tr tr' : Trace ι κ} (h : Spares k D tr tr') {act : Act}
      (hact : (Rounds.ofActs (acts k tr)).Within D act) (v : RunningGateway ι κ) :
      Spares k D (tr ++ [(.line k act, v)]) tr'
  | keep {tr tr' : Trace ι κ} (h : Spares k D tr tr') {m : Move ι}
      (hm : ∀ act, m.act? k = some act → ¬ (Rounds.ofActs (acts k tr)).Within D act)
      {v v' : RunningGateway ι κ} (hv : v.Beside k v') : Spares k D (tr ++ [(m, v)])
        (tr' ++ [(m, v')])

def resume (w : RunningGateway ι κ) (k : ι) (v : Serving) : RunningGateway ι κ :=
  { w with lines := Function.update w.lines k { w.lines k with serving := v, asked := false } }

variable {p : ClientId → ChannelId → Action → Except AccessError Unit} {g : Wiring ι}
variable {w₀ w w' v u : RunningGateway ι κ} {tr tr' : Trace ι κ} {k : ι} {D : Finset ℕ} {m : Move ι}

omit [DecidableEq ι] in
theorem beside_refl : w.Beside k w := ⟨rfl, fun _ _ => rfl, rfl, rfl, rfl, rfl⟩

theorem beside_resume (x : Serving) : w.Beside k (w.resume k x) where
  services := rfl
  lines := fun j hj => by simp [resume, Function.update_of_ne hj]
  writer := by simp [resume]
  standing := by simp [resume]
  watches := rfl
  relay := rfl

theorem resume_self (ha : (w.lines k).asked = false) : w.resume k (w.lines k).serving = w := by
  have hline : ({ w.lines k with asked := false } : Line) = w.lines k := by rw [← ha]
  simp [resume, hline]

theorem resume_line (l : Line) (x : Serving) (hs : l.standing = (w.lines k).standing)
    (hw : l.writer = (w.lines k).writer) :
    ({ w with lines := Function.update w.lines k l } : RunningGateway ι κ).resume k x =
      w.resume k x := by
  simp [resume, hs, hw]

theorem resume_setWriter (w : RunningGateway ι κ) (j : ι) (writer : Writer) (x : Serving) :
    (w.setWriter j writer).resume k x = (w.resume k x).setWriter j writer := by
  by_cases hjk : j = k
  · subst hjk
    simp [resume, setWriter]
  · simp only [resume, setWriter, Function.update_of_ne hjk, Function.update_of_ne (Ne.symm hjk)]
    rw [Function.update_comm hjk]

theorem lines_resume_writer (w : RunningGateway ι κ) (x : Serving) (j : ι) :
    ((w.resume k x).lines j).writer = (w.lines j).writer := by
  by_cases hjk : j = k
  · subst hjk
    simp [resume]
  · simp [resume, Function.update_of_ne hjk]

/-- Where two runs are with the line `k` if the second is the first without the rounds `D`. -/
inductive Shadow (st : Settings) (queue : QueueId) (v₀ : Serving) (k : ι) (D : Finset ℕ)
    (w w' : RunningGateway ι κ) (as as' : List Act) : Prop
  | together (hout : ¬ (Rounds.ofActs as).Amid D) (hw : w' = w)
      (hr : Rounds.ofActs as' = (Rounds.ofActs as).sparing D)
      (hcalls : (made as').filter Call.lasts = (made as).filter Call.lasts)
  | apart {v : Serving} {o : Round} {m : Moments} {work work' : Work Session (Session × Next)}
      (ho : (Rounds.ofActs as).current = some o) (hin : (Rounds.ofActs as).past.length ∈ D)
      (hw : w' = w.resume k v)
      (hr : Rounds.ofActs as' = { (Rounds.ofActs as).sparing D with current := none })
      (hh : Handled st queue v₀ (Rounds.ofActs as).past v) (hv : v.waits = true)
      (ha : v.arrive st m queue o.arrival = .working work)
      (hd : work.Reaches o.dealings work') (hk : (w.lines k).serving = .working work')

namespace Shadow
variable {st : Settings} {queue : QueueId} {v₀ : Serving} {as as' : List Act} {act : Act}
variable {t : Services} {l : Line}

theorem services (h : Shadow st queue v₀ k D w w' as as') : w'.services = w.services := by
  cases h with
  | together _ hw | apart _ _ hw => exact hw ▸ rfl

theorem line (h : Shadow st queue v₀ k D w w' as as')
    (hl : Line.Step queue w.services (w.lines k) act t l)
    (hact : ¬ (Rounds.ofActs as).Within D act) :
    w' = w ∧ Shadow st queue v₀ k D v v (as ++ [act]) (as' ++ [act]) := by
  cases h with
  | together hout hw hr hcalls =>
    obtain ⟨hafter, hout'⟩ := Rounds.after_spared hout hact
    refine ⟨hw, .together (by rwa [Rounds.ofActs_concat]) rfl ?_ ?_⟩
    · rw [Rounds.ofActs_concat, Rounds.ofActs_concat, hr, hafter]
    · rw [made_concat, made_concat, List.filter_append, List.filter_append, hcalls]
  | apart ho hin hw hr hh hv ha hd hk =>
    refine absurd ?_ hact
    cases act with
    | arrive a =>
      cases hl with
      | arrive _ _ _ hwaits => simp [hk, Serving.waits] at hwaits
    | _ => exact ⟨by simp [ho], hin⟩

theorem rounds_eq (h : Shadow st queue v₀ k D w w' as as') :
    rounds as' = spared D (rounds as) := by
  rw [rounds, rounds]
  cases h with
  | together hout _ hr => rw [hr, Rounds.all_sparing hout]
  | apart ho hin _ hr =>
    rw [hr, Rounds.all_of_none rfl, Rounds.spared_all_of_mem ho hin, Rounds.sparing]

theorem beside (h : Shadow st queue v₀ k D w w' as as') : w.Beside k w' := by
  cases h with
  | together _ hw => exact hw ▸ beside_refl
  | apart _ _ hw => exact hw ▸ beside_resume _

theorem apart_concat {v : Serving} {o : Round} {m : Moments}
    {work work' : Work Session (Session × Next)}
    (ho : ((Rounds.ofActs as).after act).current = some o)
    (hpast : ((Rounds.ofActs as).after act).past = (Rounds.ofActs as).past)
    (hbroken : ((Rounds.ofActs as).after act).broken = (Rounds.ofActs as).broken)
    (hin : (Rounds.ofActs as).past.length ∈ D) (hw : w' = w.resume k v)
    (hr : Rounds.ofActs as' = { (Rounds.ofActs as).sparing D with current := none })
    (hh : Handled st queue v₀ (Rounds.ofActs as).past v) (hv : v.waits = true)
    (ha : v.arrive st m queue o.arrival = .working work) (hd : work.Reaches o.dealings work')
    (hk : (w.lines k).serving = .working work') :
    Shadow st queue v₀ k D w w' (as ++ [act]) as' := by
  rw [Rounds.sparing, ← hpast, ← hbroken] at hr
  rw [← hpast] at hin hh
  rw [← Rounds.ofActs_concat] at ho hin hr hh
  exact .apart ho hin hw hr hh hv ha hd hk

section
variable {name : String} {protocol : Protocol}

theorem enter (hout : ¬ (Rounds.ofActs as).Amid D)
    (hr' : Rounds.ofActs as' = (Rounds.ofActs as).sparing D)
    (hr : Line.Run st queue { serving := .opening (.start name protocol) } as (w.lines k))
    (hst : w.services.settings = st) (hl : Line.Step queue w.services (w.lines k) act t l)
    (hact : (Rounds.ofActs as).Within D act) :
    t = w.services ∧ Shadow st queue (.opening (.start name protocol)) k D
      { w with services := t, lines := Function.update w.lines k l } w (as ++ [act]) as' := by
  subst hst
  cases act with
  | arrive a =>
    cases hl with
    | arrive m _ _ hwaits =>
      obtain ⟨hnone, hhandled, -⟩ := hr.situation.of_waits hwaits
      obtain ⟨work, hwork⟩ :=
        Serving.arrive_of_waits hwaits w.services.settings m queue a
      have hasked := hr.sound.unasked (Serving.call?_of_waits hwaits)
      have hpast : ((Rounds.ofActs as).after (.arrive a)).past = (Rounds.ofActs as).past :=
        Rounds.all_of_none hnone
      have hin : (Rounds.ofActs as).past.length ∈ D := hpast ▸ hact
      have hself := resume_line (w := w) (k := k)
        { w.lines k with serving := (w.lines k).serving.arrive w.services.settings m queue a }
        (w.lines k).serving rfl rfl
      have hsame := hself.trans (resume_self hasked)
      rw [Rounds.sparing, hnone] at hr'
      rw [Rounds.all_of_none hnone] at hhandled
      exact ⟨rfl, .apart_concat (o := ⟨a, []⟩) rfl hpast rfl hin hsame.symm hr' hhandled hwaits
        hwork (.here work) (by simpa using hwork)⟩
  | _ => exact absurd hact hout

theorem hear (h : Shadow st queue v₀ k D w w' as as') (hin : (Rounds.ofActs as).Amid D) {c : Call}
    {r : c.Reply} {f : c.Reply → Serving} (hc : (w.lines k).serving.call? = some ⟨c, f⟩)
    (hm : Move.Conforms p w.services t (.line k (.hear c r)))
    (hD : ((Rounds.ofActs as).after (.hear c r)).Vain D) :
    t = w.services ∧ Shadow st queue v₀ k D
      { w with
        lines := Function.update w.lines k { w.lines k with serving := f r, asked := false } }
      w' (as ++ [.hear c r]) as' := by
  cases h with
  | together hout => exact absurd hin hout
  | @apart v o m work work' ho hin hw hr hh hv ha hd hk =>
    have hcurrent : ((Rounds.ofActs as).after (.hear c r)).current =
        some { o with dealings := o.dealings ++ [⟨c, r⟩] } := by
      simp [Rounds.after, ho]
    rw [hk] at hc
    obtain ⟨t', f', rfl, rfl⟩ := Serving.eq_call_of_working hc
    constructor
    · -- What was answered is a question to the policy, or the denial, which was sent.
      obtain ⟨d, hprefix, hfruitless⟩ := hD.current _ hcurrent hin
      obtain ⟨asked, text, hdealings, hasked⟩ := hfruitless.inquiries
      have hmem : (⟨c, r⟩ : Σ c : Call, c.Reply) ∈
          asked ++ [⟨.send (.error 403 text), .ok ()⟩] :=
        hdealings ▸ hprefix.subset (List.mem_append_right _ (List.mem_singleton_self _))
      rcases List.mem_append.1 hmem with hmem | hmem
      · obtain ⟨client, channel, action, rfl⟩ := hasked _ hmem
        exact hm.2
      · cases List.mem_singleton.1 hmem
        exact hm
    · have hsame := resume_line { w.lines k with serving := .working (f' r), asked := false } v
        rfl rfl
      exact .apart_concat hcurrent rfl rfl hin (hw.trans hsame.symm) hr hh hv ha (hd.hear r)
        (by simp)

theorem leave (h : Shadow st queue (.opening (.start name protocol)) k D w w' as as')
    (hin : (Rounds.ofActs as).Amid D)
    (hr : Line.Run st queue { serving := .opening (.start name protocol) } as (w.lines k))
    (hr' : Line.Run st queue { serving := .opening (.start name protocol) } as' (w'.lines k))
    (hst : w.services.settings = st) (hl : Line.Step queue w.services (w.lines k) .settle t l)
    (hD : ((Rounds.ofActs as).after .settle).Vain D) :
    t = w.services ∧ Shadow st queue (.opening (.start name protocol)) k D
      { w with services := t, lines := Function.update w.lines k l } w' (as ++ [.settle]) as' := by
  cases h with
  | together hout => exact absurd hin hout
  | @apart v o m work work' ho hin hw hrounds hh hv ha hd hk =>
    have hspared := Rounds.spared_all_of_mem ho hin
    have hvain : HoldsAt D Round.Fruitless (Rounds.ofActs as).all := hD.past
    have hfruitless := Rounds.fruitless_of_mem hvain ho hin
    obtain ⟨-, x, rfl, rfl⟩ := hh.fruitless ha hd hfruitless.toDenied
    have hrun := hr.step hst hl
    cases hl with
    | @settle m' hserving y next hwork =>
      cases hk.symm.trans hwork
      have hasked := hr.sound.unasked (hk ▸ rfl)
      obtain ⟨-, -, hcalls⟩ := hrun.situation.of_waits rfl
      have hwaits : (w'.lines k).serving.waits = true := by simp [hw, resume, Serving.waits]
      obtain ⟨-, -, hcalls'⟩ := hr'.situation.of_waits hwaits
      refine ⟨rfl, .together ?_ ?_ ?_ ?_⟩
      · rw [Rounds.ofActs_concat]
        exact fun h => h.1 rfl
      · rw [hw, resume, ← hasked]
        rfl
      · rw [hrounds, Rounds.ofActs_concat, Rounds.after, Rounds.sparing, Rounds.sparing, hspared]
      · rw [hcalls, hcalls', hrounds, Rounds.ofActs_concat, Rounds.all_after_settle,
          Rounds.all_of_none rfl, Rounds.sparing, ← hspared, filter_lasts_spared _ hvain]

theorem skip (h : Shadow st queue (.opening (.start name protocol)) k D w w' as as')
    (hr : Line.Run st queue { serving := .opening (.start name protocol) } as (w.lines k))
    (hr' : Line.Run st queue { serving := .opening (.start name protocol) } as' (w'.lines k))
    (hst : w.services.settings = st) (hl : Line.Step queue w.services (w.lines k) act t l)
    (hm : Move.Conforms p w.services t (.line k act)) (hact : (Rounds.ofActs as).Within D act)
    (hD : ((Rounds.ofActs as).after act).Vain D) :
    t = w.services ∧ Shadow st queue (.opening (.start name protocol)) k D
      { w with services := t, lines := Function.update w.lines k l } w' (as ++ [act]) as' := by
  have hshadow := h
  cases h with
  | together hout hw hrounds =>
    subst hw
    exact enter hout hrounds hr hst hl hact
  | @apart v o m work work' ho hin hw hrounds hh hv ha hd hk =>
    have hamid : (Rounds.ofActs as).Amid D := ⟨by simp [ho], hin⟩
    -- The line can only be stopped or cut off before the denial is sent.
    have hbusy : HoldsAt D Round.Fruitless (Rounds.ofActs as).all → ¬ (w.lines k).Suspended := by
      intro hvain hsus
      have hfruitless := Rounds.fruitless_of_mem hvain ho hin
      obtain ⟨-, x, -, rfl⟩ := hh.fruitless ha hd hfruitless.toDenied
      have hasked := hr.sound.unasked (hk ▸ rfl)
      cases hsus with
      | waits hwaits => simp [hk, Serving.waits] at hwaits
      | asked htrue => simp [hasked] at htrue
      | closes hcloses => simp [hk] at hcloses
    have hstep := hl
    cases hl with
    | arrive _ _ _ hwaits => simp [hk, Serving.waits] at hwaits
    | ask =>
      have hsame := resume_line { w.lines k with asked := true } v rfl rfl
      exact ⟨rfl, .apart_concat ho rfl rfl hin (hw.trans hsame.symm) hrounds hh hv ha hd
        (by simpa using hk)⟩
    | hear _ hc =>
      obtain ⟨rfl, hheard⟩ := hshadow.hear hamid hc hm hD
      exact ⟨rfl, hheard⟩
    | settle => exact hshadow.leave hamid hr hr' hst hstep hD
    | ret _ hwork | part _ hwork => simp [hk] at hwork
    | drop _ _ hg =>
      obtain ⟨outcome, w₁, hleaving⟩ := Serving.guarded?_eq_none_iff.1 hg
      simp [hk] at hleaving
    | halt _ _ hx => exact absurd hx.suspended.1 (hbusy hD.past)
    | cut _ _ hsus => exact absurd hsus (hbusy hD.past)

theorem ends (h : Shadow st queue (.opening (.start name protocol)) k D w w' as as')
    (hvain : HoldsAt D Round.Fruitless (rounds as)) :
    w' = w ∨ ∃ x, (w.lines k).serving = .working (.done (x, .proceed)) ∧
      w' = w.resume k (.reading x) := by
  cases h with
  | together _ hw => exact .inl hw
  | apart ho hin hw _ hh hv ha hd hk =>
    have hfruitless := Rounds.fruitless_of_mem hvain ho hin
    obtain ⟨-, x, rfl, rfl⟩ := hh.fruitless ha hd hfruitless.toDenied
    exact .inr ⟨x, hk, hw⟩

theorem calls_eq (h : Shadow st queue (.opening (.start name protocol)) k D w w' as as')
    (hr : Line.Run st queue { serving := .opening (.start name protocol) } as (w.lines k))
    (hr' : Line.Run st queue { serving := .opening (.start name protocol) } as' (w'.lines k))
    (hvain : HoldsAt D Round.Fruitless (rounds as)) :
    (made as').filter Call.lasts = (made as).filter Call.lasts := by
  have hrounds := h.rounds_eq
  cases h with
  | together _ _ _ hcalls => exact hcalls
  | apart ho hin hw _ hh hv ha hd hk =>
    have hfruitless := Rounds.fruitless_of_mem hvain ho hin
    obtain ⟨-, x, -, rfl⟩ := hh.fruitless ha hd hfruitless.toDenied
    have hcalls := hr.situation.calls_of_working hk
    have hpending : (w.lines k).serving.pending (w.lines k).asked = [] := by
      simp [hk, Serving.pending, Serving.call?]
    obtain ⟨-, -, hcalls'⟩ := hr'.situation.of_waits (by simpa [hw, resume] using hv)
    rw [hpending, List.append_nil] at hcalls
    rw [hcalls, hcalls', ← rounds, ← rounds, hrounds, filter_lasts_spared _ hvain]

end

end Shadow

theorem Spares.filterMap_eq {β : Type} {f : Move ι → Option β} (h : Spares k D tr tr')
    (hf : ∀ e ∈ tr, ∀ act, e.1 = .line k act → f e.1 = none) :
    tr'.filterMap (fun e => f e.1) = tr.filterMap fun e => f e.1 := by
  induction h with
  | start => rfl
  | skip h hact v ih =>
    obtain ⟨hbefore, hlast⟩ := List.forall_mem_append.1 hf
    have hnone := hlast _ (List.mem_singleton_self _) _ rfl
    rw [filterMap_concat, hnone, ih hbefore]
    exact (List.append_nil _).symm
  | keep h hm hv ih =>
    obtain ⟨hbefore, -⟩ := List.forall_mem_append.1 hf
    rw [filterMap_concat, filterMap_concat, ih hbefore]

theorem Spares.received_sublist (h : Spares k D tr tr') (j : ι) :
    (received j tr').Sublist (received j tr) := by
  induction h with
  | start => exact .refl _
  | skip h hact v ih =>
    rw [received, received, filterMap_concat]
    exact ih.trans (List.sublist_append_left _ _)
  | keep h hm hv ih =>
    rw [received, received, filterMap_concat, filterMap_concat]
    exact ih.append_right _

variable [DecidableEq κ]

theorem Step.resume (hs : Step g w m v) (hm : m.act? k = none) (x : Serving) :
    Step g (w.resume k x) m (v.resume k x) := by
  cases hs with
  | @line j act t l hl =>
    have hjk : j ≠ k := by
      rintro rfl
      simp [Move.act?] at hm
    have hstep : Step g (w.resume k x) (.line j act) _ :=
      .line j (t := t) (l := l)
        (by simpa [RunningGateway.resume, Function.update_of_ne hjk] using hl)
    simp only [RunningGateway.resume, Function.update_of_ne (Ne.symm hjk)] at hstep ⊢
    rwa [Function.update_comm hjk]
  | @deliver j hw q q' n hq ht =>
    rw [resume_setWriter]
    exact .deliver j (by rwa [lines_resume_writer]) hq ht
  | sent j hw =>
    rw [resume_setWriter]
    exact .sent j (by rwa [lines_resume_writer])
  | hush j hq => exact .hush j hq
  | observe j hb => exact .observe j hb
  | answer j hj ht => exact .answer (w := w.resume k x) j hj ht
  | take hr hd => exact .take hr hd
  | publish hr hl => exact .publish hr hl
  | offer hr => exact .offer (w := w.resume k x) hr
  | finish hr => exact .finish hr
  | elsewhere hbus hbroker hsettings hqueues => exact .elsewhere hbus hbroker hsettings hqueues

theorem Governed.run (hr : Governed p g w₀ tr w) : Run g w₀ tr w := by
  induction hr with
  | start => exact .start
  | step _ hs _ ih => exact ih.step hs

theorem Shadow.elsewhere {st : Settings} {queue : QueueId} {v₀ : Serving} {as as' : List Act}
    (h : Shadow st queue v₀ k D w w' as as') (hs : Step g w m v)
    (hm : m.act? k = none) :
    ∃ v', Step g w' m v' ∧ v.Beside k v' ∧ Shadow st queue v₀ k D v v' as as' := by
  cases h with
  | together hout hw hr hcalls =>
    subst hw
    exact ⟨v, hs, beside_refl, .together hout rfl hr hcalls⟩
  | @apart x o m work work' ho hin hw hr hh hv ha hd hk =>
    subst hw
    refine ⟨v.resume k x, hs.resume hm x, beside_resume x,
      .apart ho hin rfl hr hh hv ha hd ?_⟩
    rcases hs.line_cases k with ⟨act, t, rfl, -⟩ | ⟨-, hsame | ⟨-, writer, hwriter⟩⟩
    · simp [Move.act?] at hm
    · rwa [hsame]
    · rwa [hwriter]

theorem Governed.shadow {protocol : Protocol}
    (hk : w₀.lines k = { serving := .opening (.start (g.name k) protocol) })
    (hr : Governed p g w₀ tr w) (hD : (Rounds.ofActs (acts k tr)).Vain D) :
    ∃ tr' w', Governed p g w₀ tr' w' ∧ Spares k D tr tr' ∧
      Shadow w₀.services.settings (g.queue k) (.opening (.start (g.name k) protocol)) k D w w'
        (acts k tr) (acts k tr') := by
  induction hr with
  | start => exact ⟨[], w₀, .start, .start, .together (fun h => h.1 rfl) rfl rfl rfl⟩
  | @step tr w v m hr hs hm ih =>
    rw [acts_concat] at hD ⊢
    cases hact : m.act? k with
    | none =>
      rw [hact, Option.toList_none, List.append_nil] at hD
      obtain ⟨tr', w', hr', hspares, hshadow⟩ := ih hD
      obtain ⟨v', hs', hbeside, hshadow'⟩ := hshadow.elsewhere hs hact
      refine ⟨tr' ++ [(m, v')], v', hr'.step hs' ?_, hspares.keep (by simp [hact]) hbeside, ?_⟩
      · rwa [hshadow.services, hbeside.services]
      · rwa [acts_concat, hact, Option.toList_none, List.append_nil, List.append_nil]
    | some act =>
      obtain rfl := Move.eq_line_of_act? hact
      rw [hact, Option.toList_some, Rounds.ofActs_concat] at hD
      obtain ⟨tr', w', hr', hspares, hshadow⟩ := ih hD.of_after
      have hline := hr.run.line k
      have hline' := hr'.run.line k
      rw [hk] at hline hline'
      have hstep := hs
      cases hs with
      | @line _ _ t l hl =>
        by_cases hwithin : (Rounds.ofActs (acts k tr)).Within D act
        · obtain ⟨rfl, hskip⟩ :=
            hshadow.skip hline hline' hr.run.settings_eq hl hm hwithin hD
          exact ⟨tr', w', hr', hspares.skip hwithin _, hskip⟩
        · obtain ⟨rfl, hboth⟩ := hshadow.line hl hwithin
          refine ⟨_, _, hr'.step hstep hm, hspares.keep ?_ beside_refl, ?_⟩
          · intro act' hact'
            rw [hact] at hact'
            cases hact'
            exact hwithin
          · rw [acts_concat, hact]
            exact hboth

theorem Run.delivery_of_line (hr : Run g w₀ tr w) (hb : w₀.Begins g)
    {e : Move ι × RunningGateway ι κ}
    (he : e ∈ tr) {j : ι} {act : Act} (hact : e.1 = .line j act) (k : ι) :
    e.1.delivery? k = none := by
  obtain ⟨before, rest, rfl⟩ := List.append_of_mem he
  obtain ⟨u, hu, hs, -⟩ := hr.step_at
  rw [hact] at hs ⊢
  exact (hu.sound hb).delivery_of_line hs

/-- What a run `tr` to `w` and a run `tr'` to `w'` are to each other if the second is the first but
for what the device of the line `k` was denied in the rounds `D`. -/
structure Traceless (k : ι) (D : Finset ℕ) (tr : Trace ι κ) (w : RunningGateway ι κ)
    (tr' : Trace ι κ)
    (w' : RunningGateway ι κ) : Prop where
  spares : Spares k D tr tr'
  script : (acts k tr').filterMap Act.arrival? = spared D ((acts k tr).filterMap Act.arrival?)
  replies : (rounds (acts k tr')).map Round.replies =
    spared D ((rounds (acts k tr)).map Round.replies)
  removed : ∀ n ∈ D, ∃ text,
    ((rounds (acts k tr)).map Round.replies)[n]? = some [.error 403 text]
  lasting : (made (acts k tr')).filter Call.lasts = (made (acts k tr)).filter Call.lasts
  published : published (made (acts k tr')) = published (made (acts k tr))
  recorded : recorded (acts k tr') = recorded (acts k tr)
  deliveries : deliveries k tr' = deliveries k tr
  others : ∀ j, j ≠ k → acts j tr' = acts j tr ∧ received j tr' = received j tr
  received : (received k tr').Sublist (received k tr)
  beside : w.Beside k w'
  ends : w' = w ∨ ∃ x, (w.lines k).serving = .working (.done (x, .proceed)) ∧
    w' = w.resume k (.reading x)

/-- The policy being a function, and all others doing what they did: whatever part of what was
denied to a device is taken from what it says, there is no trace of it. -/
theorem denials_leave_no_trace (hb : w₀.Begins g) (hr : Governed p g w₀ tr w) (k : ι) (D : Finset ℕ)
    (hD : ∀ n ∈ D, ∃ r, (rounds (acts k tr))[n]? = some r ∧ r.Denied) :
    ∃ tr' w', Governed p g w₀ tr' w' ∧ Traceless k D tr w tr' w' := by
  obtain ⟨protocol, hk⟩ := hb.lines k
  have hline := hr.run.line k
  rw [hk] at hline
  have hvain : HoldsAt D Round.Fruitless (rounds (acts k tr)) := by
    intro n hn r hround
    obtain ⟨r', hround', hdenied⟩ := hD n hn
    cases hround.symm.trans hround'
    exact hline.fruitless r (List.mem_of_getElem? hround) hdenied
  obtain ⟨tr', w', hr', hspares, hshadow⟩ := hr.shadow hk (Rounds.vain_of_all hvain)
  have hline' := hr'.run.line k
  rw [hk] at hline'
  have hrounds := hshadow.rounds_eq
  have hcalls := hshadow.calls_eq hline hline' hvain
  refine ⟨tr', w', hr',
    { spares := hspares
      script := ?_
      replies := by rw [hrounds, spared_map]
      removed := fun n hn => ?_
      lasting := hcalls
      published := by rw [← published_filter_lasts, hcalls, published_filter_lasts]
      recorded := by rw [← eventsOf_made, ← eventsOf_made, ← eventsOf_filter_lasts, hcalls,
        eventsOf_filter_lasts]
      deliveries := ?_
      received := hspares.received_sublist k
      others := fun j hj => ⟨?_, ?_⟩
      beside := hshadow.beside
      ends := hshadow.ends hvain }⟩
  · rw [← arrivals_rounds, ← arrivals_rounds, hrounds, spared_map]
  · obtain ⟨r, hround, -⟩ := hD n hn
    obtain ⟨text, hreplies⟩ := (hvain n hn r hround).replies_eq
    exact ⟨text, by simp [hround, hreplies]⟩
  · exact hspares.filterMap_eq fun e he act hact => hr.run.delivery_of_line hb he hact k
  · refine hspares.filterMap_eq fun e he act hact => ?_
    simp [hact, Move.act?, Ne.symm hj]
  · refine hspares.filterMap_eq fun e he act hact => ?_
    cases act with
    | ask c => cases c <;> simp [hact, Move.frame?, Ne.symm hj]
    | _ => simp [hact, Move.frame?]

theorem Governed.single_step {tr : Trace Unit Empty} {l l' : Line} {act : Act}
    (hr : Governed p singleWiring single tr { single with lines := fun _ => l })
    (hl : Line.Step 0 single.services l act single.services l')
    (hm : Move.Conforms p single.services single.services (.line () act)) :
    Governed p singleWiring single (tr ++ [(.line () act, { single with lines := fun _ => l' })])
      { single with lines := fun _ => l' } := by
  have hstep := hr.step (.line () hl) hm
  rwa [Function.update_eq_const_of_subsingleton] at hstep

theorem Governed.single_call {tr : Trace Unit Empty} {l : Line}
    (hr : Governed p singleWiring single tr { single with lines := fun _ => l })
    (ho : l.standing.isOver = false) (hn : l.asked = false) {c : Call} {f : c.Reply → Serving}
    (hc : l.serving.call? = some ⟨c, f⟩) (ha : c.isAwaited = true) (r : c.Reply)
    (hm : Move.Conforms p single.services single.services (.line () (.hear c r))) :
    Governed p singleWiring single
      (tr ++ [(.line () (.ask c), { single with lines := fun _ => { l with asked := true } })] ++
        [(.line () (.hear c r),
          { single with lines := fun _ => { l with serving := f r, asked := false } })])
      { single with lines := fun _ => { l with serving := f r, asked := false } } :=
  (hr.single_step (.ask ho hc ha hn) trivial).single_step
    (.hear (l := { l with asked := true }) ho hc ha.symm (Services.answers_unchanged _ ha r)) hm

theorem denials_leave_no_trace_of_single : ∃ (tr tr' : Trace Unit Empty)
    (w w' : RunningGateway Unit Empty),
    single.Begins singleWiring ∧
    Governed (fun client c a => .error (.denied client c a)) singleWiring single tr w ∧
    (rounds (acts () tr)).map Round.replies =
      [[.connAck], [.error 403 "authorization failed: a may not publish on channel c"], [.pong]] ∧
    Governed (fun client c a => .error (.denied client c a)) singleWiring single tr' w' ∧
    (rounds (acts () tr')).map Round.replies = [[.connAck], [.pong]] ∧
    Traceless () {1} tr w tr' w' := by
  have hconnect := Packet.ofFrame?_frame (.connect "a")
  have hpublish := Packet.ofFrame?_frame (.publish "channels/c/messages" [1])
  have hping := Packet.ofFrame?_frame .ping
  have hne : "a" ≠ "" := by decide
  have hparse : Topic.parse "channels/c/messages" = .ok ⟨⟨"c", by decide⟩, ""⟩ := by decide
  have hfresh : (Session.start "1" .mqtt).phase = .fresh := rfl
  have hconnected : singleSession.connected? = some ⟨"a"⟩ := rfl
  have hstart : Governed (fun client c a => .error (.denied client c a)) singleWiring single []
      { single with lines := fun _ => { serving := .opening (.start "1" .mqtt) } } := .start
  have harrived := hstart.single_step
    (.arrive (fun _ => ⟨0, 0⟩) (.frame (Packet.connect "a").frame) rfl rfl) trivial
  simp only [Serving.arrive, Session.opening_connect hfresh hconnect, if_neg hne] at harrived
  have hidentified := harrived.single_call rfl rfl rfl rfl (.ok ⟨"a"⟩) trivial
  have hrecorded := hidentified.single_call rfl rfl rfl rfl (.ok ()) trivial
  have hwelcomed := hrecorded.single_call rfl rfl rfl rfl (.ok ()) rfl
  have hbegun := hwelcomed.single_step (.settle ⟨0, 0⟩ rfl rfl) trivial
  change Governed _ singleWiring single _
    { single with lines := fun _ => { serving := .reading singleSession, writer := .idle } }
    at hbegun
  have hasked := hbegun.single_step
    (.arrive (fun _ => ⟨0, 0⟩) (.frame (Packet.publish "channels/c/messages" [1]).frame) rfl rfl)
    trivial
  simp only [Serving.arrive, Session.reading, hpublish, Session.packet_publish hconnected, hparse]
    at hasked
  have hdenied := hasked.single_call rfl rfl rfl rfl
    (.error (.denied ⟨"a"⟩ ⟨"c", by decide⟩ .publish)) ⟨rfl, rfl⟩
  have htold := hdenied.single_call rfl rfl rfl rfl (.ok ()) rfl
  have hwaiting := htold.single_step (.settle ⟨0, 0⟩ rfl rfl) trivial
  change Governed _ singleWiring single _
    { single with lines := fun _ => { serving := .reading singleSession, writer := .idle } }
    at hwaiting
  have hpinged := hwaiting.single_step
    (.arrive (fun _ => ⟨0, 0⟩) (.frame Packet.ping.frame) rfl rfl) trivial
  simp only [Serving.arrive, Session.reading, hping, Session.packet] at hpinged
  have hended := hpinged.single_call rfl rfl rfl rfl (.ok ()) rfl
  obtain ⟨tr', w', hr', htraceless⟩ :=
    denials_leave_no_trace begins_single hended () {1} fun n hn => by
      rw [Finset.mem_singleton.1 hn]
      exact ⟨_, rfl, ⟨_, _, _, _, _, rfl, hpublish, .publish _ _⟩, _,
        List.mem_cons_of_mem _ (List.mem_singleton_self _)⟩
  refine ⟨_, tr', _, w', begins_single, hended, rfl, hr', ?_, htraceless⟩
  rw [htraceless.replies]
  rfl

end RunningGateway

end DeviceGateway
