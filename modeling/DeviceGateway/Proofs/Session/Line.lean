import DeviceGateway.Proofs.Session.Serving
import DeviceGateway.Proofs.Session.Surroundings

/-!
# The serving of one connection, step by step

A line is a connection with the task that serves it and the task that writes deliveries to it. The
serving task can be cut off wherever it waits: for an arrival, for the reply to a call, or for the
connection to close. What is left to do then goes on by itself. `Line.Sound` says where the calls
made so far have brought a line, and every step keeps it.
-/

namespace DeviceGateway

namespace Serving

def waits : Serving → Bool
  | opening _ | reading _ => true
  | working _ | leaving _ _ => false

def call? : Serving → Option (Σ c : Call, c.Reply → Serving)
  | working (.call _ c k) => some ⟨c, fun r => working (k r)⟩
  | leaving outcome (.call _ c k) => some ⟨c, fun r => leaving outcome (k r)⟩
  | _ => none

def pending (v : Serving) (asked : Bool) : List Call :=
  if asked then (v.call?.map (·.1)).toList else []

end Serving

inductive Standing
  | serving
  /-- The serving was cut off, and its session is disconnected in a task of its own. -/
  | parting
  | returned (outcome : Except GatewayError Unit)
  | gone

def Standing.isOver : Standing → Bool
  | serving | parting => false
  | returned _ | gone => true

/-- The task that writes deliveries. It takes nothing more once its queue is closed, which is how it
ends. -/
inductive Writer
  | absent
  | idle
  | sending
  deriving DecidableEq

structure Line where
  serving : Serving
  asked : Bool := false
  standing : Standing := .serving
  writer : Writer := .absent

/-- What happens on a line. A cut is an abort, or a crash of the call under way; a halt is a stop
that comes while a first frame is being refused. -/
inductive Act
  | arrive (a : Arrival)
  | ask (c : Call)
  | hear (c : Call) (r : c.Reply)
  | settle
  | finish
  | halt
  | cut

namespace Act

def heard? : Act → Option (Σ c : Call, c.Reply)
  | hear c r => some ⟨c, r⟩
  | _ => none

def made? : Act → Option Call
  | ask c => some c
  | hear c _ => if c.isAwaited then none else some c
  | _ => none

end Act

def heard (acts : List Act) : Dealings := acts.filterMap Act.heard?

def made (acts : List Act) : List Call := acts.filterMap Act.made?

def recorded (acts : List Act) : List Event :=
  acts.filterMap fun
    | .ask (.record e) => some e
    | _ => none

theorem operations_made (acts : List Act) :
    operations (made acts) = (recorded acts).map (·.operation) := by
  induction acts with
  | nil => rfl
  | cons act acts ih =>
    cases act with
    | ask c =>
      cases c with
      | record e => exact congrArg (e.operation :: ·) ih
      | _ => exact ih
    | hear c r => cases c <;> exact ih
    | _ => exact ih

theorem filterMap_concat {α β : Type} (f : α → Option β) (as : List α) (a : α) :
    (as ++ [a]).filterMap f = as.filterMap f ++ (f a).toList := by
  rw [List.filterMap_append]
  cases h : f a <;> simp [h]

theorem heard_concat (acts : List Act) (act : Act) :
    heard (acts ++ [act]) = heard acts ++ act.heard?.toList :=
  filterMap_concat _ acts act

theorem made_concat (acts : List Act) (act : Act) :
    made (acts ++ [act]) = made acts ++ act.made?.toList :=
  filterMap_concat _ acts act

theorem heard_isPrefix (acts : List Act) (act : Act) : heard acts <+: heard (acts ++ [act]) :=
  heard_concat acts act ▸ List.prefix_append _ _

namespace Line

/-- A first frame that is no Connect is being answered. No other send is given up for a stop. -/
def TurnsAway (l : Line) (x : Session) : Prop :=
  ∃ p k, l.serving = .working (.call x (.send p) k) ∧ l.asked = true ∧ x.phase = .fresh

/-- The task that serves the line waits, so it can be cut off. -/
inductive Suspended (l : Line) : Prop
  | waits (h : l.serving.waits = true)
  | asked (h : l.asked = true)
  | closes {outcome : Except GatewayError Unit} {s : Session}
      (h : l.serving = .leaving outcome (.done s))

inductive Step (queue : QueueId) (s : Services) (l : Line) : Act → Services → Line → Prop
  | arrive (m : Moments) (a : Arrival) (hs : l.standing = .serving) (hw : l.serving.waits = true) :
      Step queue s l (.arrive a) s { l with serving := l.serving.arrive s.settings m queue a }
  | ask {c : Call} {k : c.Reply → Serving} (ho : l.standing.isOver = false)
      (hc : l.serving.call? = some ⟨c, k⟩) (ha : c.isAwaited = true) (hn : l.asked = false) :
      Step queue s l (.ask c) s { l with asked := true }
  | hear {c : Call} {k : c.Reply → Serving} (ho : l.standing.isOver = false)
      (hc : l.serving.call? = some ⟨c, k⟩) (ha : l.asked = c.isAwaited) {r : c.Reply} {t : Services}
      (ht : s.Answers c r t) :
      Step queue s l (.hear c r) t { l with serving := k r, asked := false }
  | settle (m : Moment) (hs : l.standing = .serving) {x : Session} {next : Next}
      (hw : l.serving = .working (.done (x, next))) :
      Step queue s l .settle s { l with
        serving := (Serving.settle s.settings m x next).1
        writer := if (Serving.settle s.settings m x next).2 then .idle else l.writer }
  | halt (m : Moment) (hs : l.standing = .serving) {x : Session} (hx : l.TurnsAway x) :
      Step queue s l .halt s { l with
        serving := .leaving (.ok ()) (x.disconnect s.settings m), asked := false }
  | ret (hs : l.standing = .serving) {outcome : Except GatewayError Unit} {x : Session}
      (hw : l.serving = .leaving outcome (.done x)) :
      Step queue s l .finish s { l with standing := .returned outcome }
  | part (hs : l.standing = .parting) {outcome : Except GatewayError Unit} {x : Session}
      (hw : l.serving = .leaving outcome (.done x)) :
      Step queue s l .finish s { l with standing := .gone }
  | cut (m : Moment) (hs : l.standing = .serving) (hsus : l.Suspended) {x : Session}
      (hg : l.serving.guarded? = some x) :
      Step queue s l .cut s { l with
        serving := .leaving (.ok ()) (x.disconnect s.settings m), asked := false,
        standing := .parting }
  | drop (ho : l.standing.isOver = false) (hsus : l.Suspended) (hg : l.serving.guarded? = none) :
      Step queue s l .cut s { l with asked := false, standing := .gone }

end Line

/-- Where a serving is when `cs` are the calls that were made and answered. -/
def Serving.Sound (owner : String) (queue : QueueId) (h : Dealings) (cs : List Call) :
    Serving → Prop
  | .opening s => s.phase = .fresh ∧ cs = h.calls ∧ s.Fits owner h h.calls
  | .reading s => cs = h.calls ∧ s.Ready owner h
  | .working w => cs = h.calls ∧
      w.Obeys (fun h t c => t.Proper owner queue h c) (Session.Settled owner) h
  | .leaving _ w => ∃ (before : List Call) (h' : Dealings), cs = before ++ h'.calls ∧
      w.Obeys (Session.Leaves owner before)
        (fun (h : Dealings) _ => Course.After owner (before ++ h.calls)) h'

namespace Serving
variable {owner : String} {queue : QueueId} {h : Dealings} {cs : List Call} {v : Serving}
variable {c : Call} {k : c.Reply → Serving}

theorem guarded?_eq_none_iff : v.guarded? = none ↔ ∃ outcome w, v = leaving outcome w := by
  constructor
  · intro hg
    rcases v with s | s | w | ⟨outcome, w⟩
    · cases hg
    · cases hg
    · cases w <;> cases hg
    · exact ⟨outcome, w, rfl⟩
  · rintro ⟨outcome, w, rfl⟩
    rfl

theorem call?_of_waits (hv : v.waits = true) : v.call? = none := by
  rcases v with s | s | w | ⟨outcome, w⟩
  · rfl
  · rfl
  · cases hv
  · cases hv

theorem guarded?_answer (hc : v.call? = some ⟨c, k⟩) (hg : v.guarded? = none) (r : c.Reply) :
    (k r).guarded? = none := by
  obtain ⟨outcome, w, rfl⟩ := guarded?_eq_none_iff.1 hg
  cases w with
  | done x => cases hc
  | call x c' k' =>
    cases hc
    rfl

theorem Sound.arrive (hv : v.Sound owner queue h cs) (hw : v.waits = true) (st : Settings)
    (m : Moments) (a : Arrival) : (v.arrive st m queue a).Sound owner queue h cs := by
  rcases v with s | s | w | ⟨outcome, w⟩
  · obtain ⟨hfresh, hcs, hfits⟩ := hv
    exact ⟨hcs, Session.opening_obeys hfresh hfits a⟩
  · obtain ⟨hcs, hready⟩ := hv
    exact ⟨hcs, hready.reading a⟩
  · cases hw
  · cases hw

theorem Sound.answer (hv : v.Sound owner queue h cs) (hc : v.call? = some ⟨c, k⟩) (r : c.Reply) :
    (k r).Sound owner queue (h ++ [⟨c, r⟩]) (cs ++ [c]) := by
  rcases v with s | s | w | ⟨outcome, w⟩
  · cases hc
  · cases hc
  · obtain ⟨rfl, hw⟩ := hv
    cases w with
    | done x => cases hc
    | call x c' k' =>
      cases hc
      exact ⟨by simp, hw.2 r⟩
  · obtain ⟨before, h', rfl, hw⟩ := hv
    cases w with
    | done x => cases hc
    | call x c' k' =>
      cases hc
      exact ⟨before, h' ++ [⟨c, r⟩], by simp, hw.2 r⟩

theorem sound_leaving {x : Session} (hx : x.Fits owner h cs) (st : Settings) (m : Moment)
    (outcome : Except GatewayError Unit) :
    (leaving outcome (x.disconnect st m)).Sound owner queue h cs :=
  ⟨cs, [], by simp, hx.disconnect⟩

theorem Sound.settle {x : Session} {next : Next}
    (hv : (working (.done (x, next))).Sound owner queue h cs) (st : Settings) (m : Moment) :
    (settle st m x next).1.Sound owner queue h cs ∧
      ((settle st m x next).2 = true → Welcomed h) := by
  obtain ⟨rfl, hx⟩ := hv
  have hsettled : Session.Settled owner h (x, next) := hx
  cases next with
  | leave outcome => exact ⟨sound_leaving hsettled.fits st m outcome, nofun⟩
  | begin | proceed =>
    obtain ⟨hconnected, hwelcomed⟩ := hsettled.goesOn nofun
    exact ⟨⟨rfl, hconnected, hsettled.fits, hwelcomed⟩, fun _ => hwelcomed⟩

end Serving

structure Line.Sound (owner : String) (queue : QueueId) (acts : List Act) (l : Line) : Prop where
  going : l.standing.isOver = false → ∃ cs,
    made acts = cs ++ l.serving.pending l.asked ∧ l.serving.Sound owner queue (heard acts) cs
  ended : l.standing.isOver = true → Course.After owner (made acts)
  leaving : l.standing ≠ .serving → l.serving.guarded? = none
  awaited : l.asked = true → ∃ c k, l.serving.call? = some ⟨c, k⟩ ∧ c.isAwaited = true
  writer : l.writer ≠ .absent → Welcomed (heard acts)

namespace Line
variable {owner : String} {queue : QueueId} {acts : List Act} {act : Act} {l l' : Line}
variable {s t : Services}

theorem sound_opening {name : String} {protocol : Protocol} :
    Sound (Session.start name protocol).owner queue []
      { serving := .opening (.start name protocol) } where
  going := fun _ => ⟨[], rfl, rfl, rfl, ⟨rfl, Course.before_nil, by simp [Session.start]⟩⟩
  ended := nofun
  leaving := fun h => absurd rfl h
  awaited := nofun
  writer := fun h => absurd rfl h

theorem Sound.after (h : l.Sound owner queue acts) (ho : l.standing.isOver = false)
    (hsus : l.Suspended) (hg : l.serving.guarded? = none) : Course.After owner (made acts) := by
  obtain ⟨cs, hmade, hsound⟩ := h.going ho
  obtain ⟨v, asked, standing, writer⟩ := l
  obtain ⟨outcome, w, rfl⟩ := Serving.guarded?_eq_none_iff.1 hg
  obtain ⟨before, h', rfl, hw⟩ := hsound
  cases w with
  | done x =>
    rw [hmade]
    simpa [Serving.pending, Serving.call?, Activity.Obeys] using hw
  | call x c k =>
    cases hsus with
    | waits hwaits => cases hwaits
    | closes hcloses => cases hcloses
    | asked hasked =>
      obtain ⟨c', k', hc, ha⟩ := h.awaited hasked
      cases hc
      rcases hw.1 with ⟨rfl, -⟩ | ⟨e, -, hafter⟩
      · cases ha
      · rw [hmade]
        simpa [Serving.pending, Serving.call?, show asked = true from hasked] using hafter

theorem Sound.fits (h : l.Sound owner queue acts) (ho : l.standing.isOver = false)
    (hsus : l.Suspended) {x : Session} (hg : l.serving.guarded? = some x) :
    x.Fits owner (heard acts) (made acts) := by
  obtain ⟨cs, hmade, hsound⟩ := h.going ho
  obtain ⟨v, asked, standing, writer⟩ := l
  rw [hmade]
  rcases v with y | y | w | ⟨outcome, w⟩
  · cases hg
    obtain ⟨-, rfl, hfits⟩ := hsound
    simpa [Serving.pending, Serving.call?] using hfits
  · cases hg
    obtain ⟨rfl, hready⟩ := hsound
    simpa [Serving.pending, Serving.call?] using hready.fits
  · obtain ⟨rfl, hw⟩ := hsound
    cases w with
    | done y =>
      cases hg
      simpa [Serving.pending, Serving.call?] using Session.Settled.fits hw
    | call y c k =>
      cases hg
      cases hsus with
      | waits hwaits => cases hwaits
      | closes hcloses => cases hcloses
      | asked hasked =>
        simpa [Serving.pending, Serving.call?, show asked = true from hasked] using hw.1.fits
  · cases hg

theorem TurnsAway.suspended {x : Session} (h : l.TurnsAway x) :
    l.Suspended ∧ l.serving.guarded? = some x := by
  obtain ⟨p, k, hw, hasked, -⟩ := h
  exact ⟨.asked hasked, by rw [hw]; rfl⟩

theorem Sound.unasked (h : l.Sound owner queue acts) (hc : l.serving.call? = none) :
    l.asked = false := by
  cases ha : l.asked with
  | false => rfl
  | true =>
    obtain ⟨c, k, hsome, -⟩ := h.awaited ha
    rw [hc] at hsome
    cases hsome

theorem Sound.step (h : l.Sound owner queue acts) (hs : Step queue s l act t l') :
    l'.Sound owner queue (acts ++ [act]) := by
  have hwriter : l.writer ≠ .absent → Welcomed (heard (acts ++ [act])) :=
    fun hw => (heard_isPrefix acts act).subset (h.writer hw)
  have hgoing := h.going
  cases hs with
  | arrive m a hserving hwaits =>
    have hasked := h.unasked (Serving.call?_of_waits hwaits)
    refine ⟨fun ho => ?_, fun ho => ?_, fun hn => absurd hserving hn, fun ha => ?_, hwriter⟩
    · obtain ⟨cs, hmade, hv⟩ := hgoing ho
      refine ⟨cs, ?_, ?_⟩
      · rw [made_concat, hmade]
        simp [hasked, Act.made?, Serving.pending]
      · rw [heard_concat]
        simpa [Act.heard?] using hv.arrive hwaits s.settings m a
    · rw [hserving] at ho
      cases ho
    · rw [hasked] at ha
      cases ha
  | @ask c k ho hc ha hn =>
    refine ⟨fun _ => ?_, fun hover => ?_, h.leaving, fun _ => ⟨c, k, hc, ha⟩, hwriter⟩
    · obtain ⟨cs, hmade, hv⟩ := hgoing ho
      refine ⟨cs, ?_, ?_⟩
      · rw [made_concat, hmade]
        simp [hn, Act.made?, Serving.pending, hc]
      · rw [heard_concat]
        simpa [Act.heard?] using hv
    · rw [ho] at hover
      cases hover
  | @hear c k ho hc ha r ht =>
    refine ⟨fun _ => ?_, fun hover => ?_, ?_, nofun, hwriter⟩
    · obtain ⟨cs, hmade, hv⟩ := hgoing ho
      refine ⟨cs ++ [c], ?_, ?_⟩
      · rw [made_concat, hmade]
        -- Either the call was pending, or it is made only now.
        cases hawaited : c.isAwaited <;>
          simp [ha, hawaited, hc, Act.made?, Serving.pending]
      · rw [heard_concat]
        exact hv.answer hc r
    · rw [ho] at hover
      cases hover
    · intro hn
      exact Serving.guarded?_answer hc (h.leaving hn) r
  | @settle m hserving x next hw =>
    have hasked := h.unasked (hw ▸ rfl)
    have hheard : heard (acts ++ [.settle]) = heard acts := by simp [heard_concat, Act.heard?]
    have hover : l.standing.isOver = false := by rw [hserving]; rfl
    obtain ⟨cs, hmade, hv⟩ := hgoing hover
    rw [hw] at hv
    obtain ⟨hnext, hbegin⟩ := hv.settle s.settings m
    refine ⟨fun _ => ⟨cs, ?_, ?_⟩, fun ho => ?_, fun hn => absurd hserving hn, fun ha => ?_, ?_⟩
    · rw [made_concat, hmade]
      simp [hasked, Act.made?, Serving.pending]
    · rw [hheard]
      exact hnext
    · rw [hover] at ho
      cases ho
    · rw [hasked] at ha
      cases ha
    · intro hn
      by_cases hb : (Serving.settle s.settings m x next).2 = true
      · rw [hheard]
        exact hbegin hb
      · simp only [hb] at hn
        exact hwriter hn
  | halt m hserving hx =>
    obtain ⟨hsus, hg⟩ := hx.suspended
    have hfits := h.fits (by rw [hserving]; rfl) hsus hg
    refine ⟨fun _ => ⟨made acts, ?_, ?_⟩, fun ho => ?_, fun _ => rfl, nofun, hwriter⟩
    · simp [made_concat, Act.made?, Serving.pending]
    · rw [heard_concat]
      simpa [Act.heard?] using Serving.sound_leaving hfits s.settings m (.ok ())
    · rw [hserving] at ho
      cases ho
  | ret hserving hw =>
    have hafter := h.after (by rw [hserving]; rfl) (.closes hw) (by rw [hw]; rfl)
    refine ⟨nofun, fun _ => ?_, fun _ => by rw [hw]; rfl, h.awaited, hwriter⟩
    simpa [made_concat, Act.made?] using hafter
  | part hparting hw =>
    have hafter := h.after (by rw [hparting]; rfl) (.closes hw) (by rw [hw]; rfl)
    refine ⟨nofun, fun _ => ?_, fun _ => by rw [hw]; rfl, h.awaited, hwriter⟩
    simpa [made_concat, Act.made?] using hafter
  | cut m hserving hsus hg =>
    have hfits := h.fits (by rw [hserving]; rfl) hsus hg
    refine ⟨fun _ => ⟨made acts, ?_, ?_⟩, nofun, fun _ => rfl, nofun, hwriter⟩
    · simp [made_concat, Act.made?, Serving.pending]
    · rw [heard_concat]
      simpa [Act.heard?] using Serving.sound_leaving hfits s.settings m (.ok ())
  | drop ho hsus hg =>
    have hafter := h.after ho hsus hg
    refine ⟨nofun, fun _ => ?_, fun _ => hg, nofun, hwriter⟩
    simpa [made_concat, Act.made?] using hafter

theorem Sound.setWriter (h : l.Sound owner queue acts) (hw : l.writer ≠ .absent) (writer : Writer) :
    Line.Sound owner queue acts { l with writer := writer } :=
  ⟨h.going, h.ended, h.leaving, h.awaited, fun _ => h.writer hw⟩

theorem Sound.makes (h : l.Sound owner queue acts) (hs : Step queue s l act t l') {c : Call}
    (hm : act.made? = some c) :
    (∃ x, l.serving.guarded? = some x ∧ made acts = (heard acts).calls ∧
      x.Proper owner queue (heard acts) c) ∨
    c = .deregisterOwner owner ∨ ∃ e, c = .record e ∧ Course.After owner (made acts ++ [c]) := by
  have hcalling : l.standing.isOver = false ∧ l.asked = false ∧
      ∃ k, l.serving.call? = some ⟨c, k⟩ := by
    cases hs with
    | ask ho hc ha hn =>
      cases hm
      exact ⟨ho, hn, _, hc⟩
    | @hear c' k ho hc ha r ht =>
      cases hawaited : c'.isAwaited with
      | true => simp [Act.made?, hawaited] at hm
      | false =>
        have hcc : c' = c := by simpa [Act.made?, hawaited] using hm
        subst hcc
        exact ⟨ho, ha.trans hawaited, k, hc⟩
    | _ => cases hm
  obtain ⟨ho, hasked, k, hc⟩ := hcalling
  obtain ⟨cs, hmade, hv⟩ := h.going ho
  obtain ⟨v, asked, standing, writer⟩ := l
  cases hasked
  rw [hmade]
  simp only [Serving.pending, Bool.false_eq_true, if_false, List.append_nil]
  rcases v with x | x | w | ⟨outcome, w⟩
  · cases hc
  · cases hc
  · obtain ⟨rfl, hw⟩ := hv
    cases w with
    | done x => cases hc
    | call x c' k' =>
      cases hc
      exact .inl ⟨x, rfl, rfl, hw.1⟩
  · obtain ⟨before, h', rfl, hw⟩ := hv
    cases w with
    | done x => cases hc
    | call x c' k' =>
      cases hc
      rcases hw.1 with ⟨rfl, -⟩ | ⟨e, rfl, hafter⟩
      · exact .inr (.inl rfl)
      · exact .inr (.inr ⟨e, rfl, hafter⟩)

theorem Sound.registers (h : l.Sound owner queue acts) {o : String}
    {entries : List (String × String)} {q : QueueId} {r : Unit}
    (hs : Step queue s l (.hear (.register o entries q) r) t l') :
    o = owner ∧ q = queue ∧ Welcomed (heard acts) ∧ (∀ e ∈ entries, Cleared (heard acts) e) ∧
      ∀ o, .deregisterOwner o ∉ made acts := by
  rcases h.makes hs rfl with ⟨x, -, hmade, hproper⟩ | hsweep | ⟨e, hrecord, -⟩
  · obtain ⟨howner, hqueue, hwelcomed, hcleared⟩ := hproper.register o entries q rfl
    refine ⟨howner, hqueue, hwelcomed, hcleared, fun o' hmem => ?_⟩
    rw [hmade] at hmem
    exact hproper.fits.unswept o' (List.mem_append_left _ hmem)
  · cases hsweep
  · cases hrecord

theorem Sound.sends (h : l.Sound owner queue acts) {p : Packet}
    (hs : Step queue s l (.ask (.send p)) t l') (topic : String) (payload : Bytes) :
    p ≠ .deliver topic payload := by
  rcases h.makes hs rfl with ⟨x, -, -, hproper⟩ | hsweep | ⟨e, hrecord, -⟩
  · rintro rfl
    exact hproper.send topic payload rfl
  · cases hsweep
  · cases hrecord

def Connected (l : Line) : Prop := ∃ x, l.serving.guarded? = some x ∧ x.phase = .connected

theorem Sound.starts (h : l.Sound owner queue acts) (hs : Step queue s l act t l')
    (hsilent : operations (made acts) = []) (hloud : operations (made (acts ++ [act])) ≠ []) :
    l.Connected := by
  rw [made_concat] at hloud
  cases hm : act.made? with
  | none =>
    rw [hm] at hloud
    simp [hsilent] at hloud
  | some c =>
    rw [hm] at hloud
    have hloud : operations (made acts ++ [c]) ≠ [] := hloud
    rcases h.makes hs hm with ⟨x, hg, hmade, hproper⟩ | rfl | ⟨e, rfl, hafter⟩
    · refine ⟨x, hg, ?_⟩
      rw [hmade] at hloud
      exact hproper.fits.connected_of_operations hloud
    · rw [operations_concat_none rfl] at hloud
      exact absurd hsilent hloud
    · have htwo := hafter.length_operations
      rw [operations_concat_record, hsilent] at htwo
      simp at htwo

theorem Suspended.asked_of_call (hsus : l.Suspended) {c : Call} {k : c.Reply → Serving}
    (hc : l.serving.call? = some ⟨c, k⟩) : l.asked = true := by
  cases hsus with
  | waits hwaits => simp [Serving.call?_of_waits hwaits] at hc
  | asked hasked => exact hasked
  | closes hcloses =>
    rw [hcloses] at hc
    cases hc

theorem Sound.call_of_connected (h : l.Sound owner queue acts) (hl : l.Connected)
    (hsilent : operations (made acts) = []) : ∃ c k, l.serving.call? = some ⟨c, k⟩ ∧
      l.asked = false ∧ operations (made acts ++ [c]) ≠ [] := by
  obtain ⟨x, hg, hx⟩ := hl
  have ho : l.standing.isOver = false := by
    by_cases hserving : l.standing = .serving
    · rw [hserving]
      rfl
    · rw [h.leaving hserving] at hg
      cases hg
  obtain ⟨cs, hmade, hv⟩ := h.going ho
  have hquiet : operations cs = [] := by
    rw [hmade, operations_append, List.append_eq_nil_iff] at hsilent
    exact hsilent.1
  obtain ⟨v, asked, standing, writer⟩ := l
  rcases v with y | y | w | ⟨outcome, w⟩
  · cases hg
    simp [hv.1] at hx
  · cases hg
    obtain ⟨rfl, hready⟩ := hv
    exact absurd hquiet (hready.fits.course_connected hx).operations_ne_nil
  · obtain ⟨rfl, hw⟩ := hv
    cases w with
    | done y =>
      cases hg
      have hfits := Session.Settled.fits hw
      exact absurd hquiet (hfits.course_connected hx).operations_ne_nil
    | call y c k =>
      cases hg
      have hduring := hw.1.fits.course_connected hx
      cases asked with
      | false =>
        have hcalls : made acts = (heard acts).calls := by simpa [Serving.pending] using hmade
        exact ⟨c, _, rfl, rfl, hcalls ▸ hduring.operations_ne_nil⟩
      | true =>
        have hcalls : made acts = (heard acts).calls ++ [c] := hmade
        rw [hcalls] at hsilent
        exact absurd hsilent hduring.operations_ne_nil
  · cases hg

def Engaged (acts : List Act) (l : Line) : Prop := operations (made acts) ≠ [] ∨ l.Connected

theorem Sound.engaged_step (h : l.Sound owner queue acts) (hs : Step queue s l act t l')
    (he : Engaged acts l) : Engaged (acts ++ [act]) l' := by
  by_cases hsilent : operations (made acts) = []
  -- The connect is the next call, and the line cannot be cut off before it is asked.
  · obtain ⟨c, k, hc, hn, hloud⟩ :=
      h.call_of_connected (he.resolve_left (absurd hsilent)) hsilent
    left
    cases hs with
    | arrive m a hserving hwaits => simp [Serving.call?_of_waits hwaits] at hc
    | ask ho hc' ha hn' =>
      rw [hc] at hc'
      cases hc'
      rw [made_concat]
      exact hloud
    | hear ho hc' ha ht =>
      rw [hc] at hc'
      cases hc'
      rw [hn] at ha
      rw [made_concat]
      simpa [Act.made?, ← ha] using hloud
    | settle m hserving hw =>
      rw [hw] at hc
      cases hc
    | ret hserving hw =>
      rw [hw] at hc
      cases hc
    | part hparting hw =>
      rw [hw] at hc
      cases hc
    | halt m hserving hx => simp [hx.suspended.1.asked_of_call hc] at hn
    | cut m hserving hsus hg | drop ho hsus hg => simp [hsus.asked_of_call hc] at hn
  · left
    rw [made_concat, operations_append]
    simp [hsilent]

theorem Sound.operations_of_over (h : l.Sound owner queue acts) (ho : l.standing.isOver = true)
    (he : Engaged acts l) : operations (made acts) ≠ [] := by
  rcases he with hops | ⟨x, hg, -⟩
  · exact hops
  · have hnone := h.leaving fun hserving => by simp [hserving, Standing.isOver] at ho
    rw [hnone] at hg
    cases hg

end Line

end DeviceGateway
