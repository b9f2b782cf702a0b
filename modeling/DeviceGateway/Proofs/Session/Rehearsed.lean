import DeviceGateway.Proofs.Session.Path
import DeviceGateway.Rehearsal.Poll

/-!
# The tasks of a rehearsal are lines

What the task that serves a connection does in a turn, and the task that disconnects a session whose
serving was cut off, are steps of a line: whatever holds of lines holds in a rehearsal.
-/

namespace DeviceGateway

structure Services.Drifts (s t : Services) : Prop where
  bus : Bus.Uses s.bus t.bus
  broker : t.broker = s.broker
  queues : t.queues = s.queues
  settings : t.settings = s.settings

theorem Services.Drifts.refl (s : Services) : s.Drifts s := ⟨.refl, rfl, rfl, rfl⟩

theorem Services.Drifts.trans {s t u : Services} (h : s.Drifts t) (h' : t.Drifts u) : s.Drifts u :=
  ⟨h.bus.trans h'.bus, h'.broker.trans h.broker, h'.queues.trans h.queues,
    h'.settings.trans h.settings⟩

theorem Services.Drifts.answers {s t : Services} (h : s.Drifts t) {c : Call}
    (hc : c.isAwaited = true) (r : c.Reply) : s.Answers c r t :=
  .awaited hc r h.bus h.broker h.queues h.settings

namespace Rehearsal

def Reacts (s : Services) (c : Call) (t : Services) : Reaction c.Reply → Prop
  | .reply r => s.Answers c r t
  | .wait _ => (∃ e, c = .record e) ∧ t = s
  | .crash => c.isAwaited = true ∧ s.Drifts t

namespace House

theorem drifts_errand (h : House) (e : Errand) : h.services.Drifts (h.errand e).1.services := by
  cases e with
  | lookUp key =>
    simp only [errand]
    split
    · exact .refl _
    · exact ⟨.refl, rfl, rfl, rfl⟩
  | resolve secret =>
    simp only [errand]
    split
    · exact .refl _
    · exact ⟨.refl, rfl, rfl, rfl⟩
  | keep key client =>
    simp only [errand]
    split
    · exact .refl _
    · exact ⟨.refl, rfl, rfl, rfl⟩

theorem drifts_run {σ α : Type} (work : Activity σ Errand Errand.Reply α) (h : House) :
    h.services.Drifts (work.run errand h).1.services := by
  induction work generalizing h with
  | done a => exact .refl _
  | call s e k ih =>
    have herrand := h.drifts_errand e
    rw [Activity.run]
    cases he : h.errand e with
    | mk h' o =>
      rw [he] at herrand
      cases o with
      | answer r => exact herrand.trans (ih r h')
      | crash => exact herrand

theorem reacts_perform (h : House) (c : Call) :
    Reacts h.services c (h.perform c).1.services (h.perform c).2 := by
  cases c with
  | identify secret =>
    have hdrifts := drifts_run (DeviceGateway.identify secret) h
    simp only [perform, identify]
    cases hrun : (DeviceGateway.identify secret).run errand h with
    | mk h' o =>
      rw [hrun] at hdrifts
      cases o with
      | answer r => exact hdrifts.answers (c := .identify secret) rfl r
      | crash => exact ⟨rfl, hdrifts⟩
  | authorize client channel action => exact (Services.Drifts.refl _).answers rfl _
  | publish subject message =>
    simp only [perform]
    split
    · exact .awaited rfl _ (Bus.uses_publish h.services.bus subject message) rfl rfl rfl
    · exact (Services.Drifts.refl _).answers rfl _
    · exact (Services.Drifts.refl _).answers rfl _
  | record e =>
    simp only [perform]
    split
    · exact .awaited rfl _ .refl rfl rfl rfl
    · exact .awaited rfl _ .refl rfl rfl rfl
    · exact (Services.Drifts.refl _).answers rfl _
    · exact (Services.Drifts.refl _).answers rfl _
    · exact ⟨⟨e, rfl⟩, rfl⟩
    · exact ⟨⟨e, rfl⟩, rfl⟩
  | send p => exact (Services.Drifts.refl _).answers rfl _
  | register | deregister | deregisterFilter | deregisterOwner =>
    exact @Services.answers_of_answer _ _ h.nanos _ _ rfl

end House

inductive Carried {α : Type} (queue : QueueId) (s : Services) (l : Line)
    (f : Work Session α → Serving) (t : Services) : Progress Session α → Prop
  | done {as : List Act} {a : α}
      (hp : Line.Path queue s l as t { l with serving := f (.done a), asked := false }) :
      Carried queue s l f t (.done a)
  | held {as : List Act} {x : Session} {e : Event} {k : (Call.record e).Reply → Work Session α}
      {due : Option Nat}
      (hp : Line.Path queue s l as t
        { l with serving := f (.call x (.record e) k), asked := true }) :
      Carried queue s l f t (.held x (.call x (.record e) k) due)
  | crashed {as : List Act} {u : Services} {x : Session} {c : Call} {k : c.Reply → Work Session α}
      (hp : Line.Path queue s l as u { l with serving := f (.call x c k), asked := true })
      (hd : u.Drifts t) : Carried queue s l f t (.crashed x)

namespace World
variable {α : Type} {queue : QueueId} {s : Services} {l : Line} {f : Work Session α → Serving}

theorem reacts_perform (w : World) (device : Option Nat) (c : Call) :
    Reacts w.house.services c (w.perform device c).1.house.services (w.perform device c).2 ∧
      (w.perform device c).1.tasks = w.tasks := by
  cases c with
  | send p =>
    simp only [perform, send]
    split
    · exact ⟨(Services.Drifts.refl _).answers rfl _, rfl⟩
    · split
      · exact ⟨(Services.Drifts.refl _).answers rfl _, rfl⟩
      · exact ⟨(Services.Drifts.refl _).answers rfl _, rfl⟩
  | _ => exact ⟨w.house.reacts_perform _, rfl⟩

structure Stages (f : Work Session α → Serving) : Prop where
  call : ∀ x c k, (f (.call x c k)).call? = some ⟨c, fun r => f (k r)⟩
  done : ∀ a, (f (.done a)).call? = none

theorem stages_working : Stages .working := ⟨fun _ _ _ => rfl, fun _ => rfl⟩

theorem stages_leaving (outcome : Except GatewayError Unit) : Stages (.leaving outcome) :=
  ⟨fun _ _ _ => rfl, fun _ => rfl⟩

def Recording (l : Line) : Prop := l.asked = true → ∃ e k, l.serving.call? = some ⟨.record e, k⟩

theorem Recording.unasked (hr : Recording l) (hc : l.serving.call? = none) : l.asked = false := by
  by_contra hasked
  obtain ⟨e, k, hrecord⟩ := hr (by simpa using hasked)
  rw [hc] at hrecord
  cases hrecord

theorem carried_carry (hf : Stages f) (ho : l.standing.isOver = false) (device : Option Nat)
    (w : World) (work : Work Session α) {as : List Act}
    (hp : Line.Path queue s l as w.house.services { l with serving := f work, asked := false }) :
    Carried queue s l f (w.carry device work).1.house.services (w.carry device work).2 ∧
      (w.carry device work).1.tasks = w.tasks := by
  -- On the work that is left; the world and the acts so far go along.
  induction work generalizing w as with
  | done a => exact ⟨.done hp, rfl⟩
  | call x c k ih =>
    obtain ⟨hreacts, htasks⟩ := w.reacts_perform device c
    rw [carry]
    cases hperform : w.perform device c with
    | mk w' reaction =>
      rw [hperform] at hreacts htasks
      cases reaction with
      | reply r =>
        obtain ⟨hcarried, hsame⟩ := ih r w' (hp.call ho rfl (hf.call x c k) hreacts)
        exact ⟨hcarried, hsame.trans htasks⟩
      | wait due =>
        obtain ⟨⟨e, rfl⟩, hservices⟩ := hreacts
        have hasked := hp.step (.ask ho (hf.call x (.record e) k) rfl rfl)
        exact ⟨.held (by rwa [hservices]), htasks⟩
      | crash =>
        obtain ⟨hawaited, hdrifts⟩ := hreacts
        have hasked := hp.step (.ask ho (hf.call x c k) hawaited rfl)
        exact ⟨.crashed hasked hdrifts, htasks⟩

variable (queue) in
theorem carried_resume (hf : Stages f) (ho : l.standing.isOver = false) (device : Option Nat)
    (w : World) {work : Work Session α} (hl : l.serving = f work) (hr : Recording l) :
    Carried queue w.house.services l f (w.resume device l.asked work).1.house.services
        (w.resume device l.asked work).2 ∧
      (w.resume device l.asked work).1.tasks = w.tasks := by
  obtain ⟨v, asked, standing, writer⟩ := l
  cases hl
  cases asked with
  | false =>
    have hresume : w.resume device false work = w.carry device work := by
      cases work <;> rfl
    rw [hresume]
    exact carried_carry hf ho device w work .start
  | true =>
    obtain ⟨e, k', hc⟩ := hr rfl
    cases work with
    | done a =>
      rw [hf.done a] at hc
      cases hc
    | call x c k =>
      rw [hf.call x c k] at hc
      cases hc
      have hstart : Line.Path queue w.house.services
        ⟨f (.call x (.record e) k), true, standing, writer⟩ [] w.house.services
        ⟨f (.call x (.record e) k), true, standing, writer⟩ := .start
      have hanswers : w.house.services.Answers (.record e) (.ok ()) (w.house.services.record e) :=
        .awaited rfl _ .refl rfl rfl rfl
      have hheard := hstart.step (.hear ho (hf.call x (.record e) k) rfl hanswers)
      exact carried_carry hf ho device { w with house := w.house.keep e } (k (.ok ())) hheard

/-- How a world shows a line: by the task that serves it, or by the one that disconnects its
session, or by neither once it is over. -/
inductive Shows (w : World) (id : TaskId) (device : Nat) (queue : QueueId) (l : Line) : Prop
  | serving {t : Task} {writer : Option TaskId} (ht : t ∈ w.tasks) (hid : t.id = id)
      (hb : t.body = .serve device queue l.serving l.asked writer) (hl : l.standing = .serving)
      (hr : Recording l)
  | parting {t : Task} {outcome : Except GatewayError Unit} {work : Work Session Session}
      (ht : t ∈ w.tasks) (hb : t.body = .farewell work l.asked)
      (hs : l.serving = .leaving outcome work) (hl : l.standing = .parting) (hr : Recording l)
  | ended (hl : l.standing.isOver = true)

theorem mem_put {w : World} {t u : Task} (ht : t ∈ w.tasks) (hid : u.id = t.id) :
    u ∈ (w.put u).tasks := by
  refine List.mem_map.2 ⟨t, ht, ?_⟩
  rw [if_pos hid.symm]

/-- What a turn does to the services besides what a line does: the queue of a line that is over is
closed, and a call that crashed may have changed what it was made to. -/
structure Ensues (queue : QueueId) (s t : Services) : Prop where
  bus : Bus.Uses s.bus t.bus
  broker : t.broker = s.broker
  queues : t.queues = s.queues ∨ t.queues = s.queues.modify queue Queue.close
  settings : t.settings = s.settings

theorem ensues_of_drifts {s t : Services} (h : s.Drifts t) : Ensues queue s t :=
  ⟨h.bus, h.broker, .inl h.queues, h.settings⟩

def Leads (id : TaskId) (device : Nat) (queue : QueueId) (s : Services) (l : Line) (w : World) :
    Prop :=
  ∃ as u l', Line.Path queue s l as u l' ∧ Ensues queue u w.house.services ∧
    Shows w id device queue l'

theorem services_finish (w : World) (t : Task) (e : Ending) :
    (w.finish t e).house.services = w.house.services := by
  simp only [finish]
  split <;> rfl

theorem leads_cutServe {u : Services} {l₀ : Line} {as : List Act}
    (hp : Line.Path queue s l₀ as u l) {w : World} (hd : u.Drifts w.house.services)
    (hl : l.standing = .serving) (hs : l.Suspended) (t : Task) (id : TaskId) (device : Nat)
    (writer : Option TaskId) (e : Ending) :
    Leads id device queue s l₀ (w.cutServe t queue l.serving.guarded? writer e) := by
  let v : World := if writer.isNone then (w.finish t e).closeQueue queue else w.finish t e
  have hensues : Ensues queue u v.house.services := by
    have hservices := services_finish w t e
    simp only [v]
    split
    · exact ⟨by simpa [closeQueue, modifyServices, hservices] using hd.bus,
        by simpa [closeQueue, modifyServices, hservices] using hd.broker,
        .inr (by simp [closeQueue, modifyServices, hservices, hd.queues]),
        by simpa [closeQueue, modifyServices, hservices] using hd.settings⟩
    · rw [hservices]
      exact ensues_of_drifts hd
  have ho : l.standing.isOver = false := by rw [hl]; rfl
  cases hg : l.serving.guarded? with
  | none =>
    have hdropped := hp.step (.drop ho hs hg)
    exact ⟨_, u, _, hdropped, hensues, .ended rfl⟩
  | some x =>
    have hcut := hp.step (.cut moment hl hs hg)
    have hsettings : v.settings = u.settings := hensues.settings
    refine ⟨_, u, _, hcut, hensues, .parting (t := ⟨v.nextTask, none,
      .farewell (x.disconnect u.settings moment) false, none, false⟩) ?_ rfl rfl rfl nofun⟩
    rw [← hsettings]
    exact List.mem_append_right _ (List.mem_singleton_self _)

theorem leads_awaitArrival {w : World} {t : Task} (ht : t ∈ w.tasks) {device : Nat}
    {writer : Option TaskId} (hb : t.body = .serve device queue l.serving l.asked writer)
    (hl : l.standing = .serving) (hw : l.serving.waits = true) (hn : l.asked = false)
    (timeout : Duration) :
    Leads t.id device queue w.house.services l
      (w.awaitArrival t device queue l.serving writer timeout) := by
  have hstart : Line.Path queue w.house.services l [] w.house.services l := .start
  have htake : ∀ (v : World) (a : Arrival), v.house = w.house → v.tasks = w.tasks →
      Leads t.id device queue w.house.services l (v.put { t with
        body := .serve device queue (l.serving.arrive w.settings moments queue a) false writer
        timer := none }) := by
    intro v a hhouse htasks
    refine ⟨_, _, _, hstart.step (.arrive moments a hl hw), ?_, ?_⟩
    · exact ensues_of_drifts (hhouse ▸ .refl _)
    · have hmem : t ∈ v.tasks := htasks ▸ ht
      refine @Shows.serving _ _ _ _ _ _ writer (mem_put hmem rfl) rfl ?_ hl fun ha => ?_
      · rw [hn]
        rfl
      · simp [hn] at ha
  simp only [awaitArrival]
  split
  · exact htake w _ rfl rfl
  · split
    · exact htake _ _ rfl rfl
    · split
      · exact htake w _ rfl rfl
      · exact ⟨[], _, l, hstart, ensues_of_drifts (.refl _),
          .serving (mem_put ht rfl) rfl hb hl fun ha => by simp [hn] at ha⟩

theorem leads_hold {l₀ : Line} {w : World} {as : List Act}
    (hp : Line.Path queue s l₀ as w.house.services l) {t : Task} (ht : t ∈ w.tasks)
    (hl : l.standing = .serving) (hr : Recording l) (device : Nat) (writer : Option TaskId)
    (due : Option Nat) :
    Leads t.id device queue s l₀
      (w.hold { t with body := .serve device queue l.serving l.asked writer } due) := by
  refine ⟨_, _, l, hp, ?_, ?_⟩
  · cases due <;> exact ensues_of_drifts (.refl _)
  · cases due <;> exact .serving (mem_put ht rfl) rfl rfl hl hr

theorem leads_settle {l₀ : Line} {w : World} {as : List Act} {x : Session} {next : Next}
    {writing : Writer} (hp : Line.Path queue s l₀ as w.house.services
      { serving := .working (.done (x, next)), writer := writing })
    {t : Task} (ht : t ∈ w.tasks) (device : Nat) (writer : Option TaskId) :
    Leads t.id device queue s l₀
      (match Serving.settle w.settings moment x next with
        | (stage, true) =>
          let (w, id) := w.spawn none (.write device queue false)
          w.put { t with body := .serve device queue stage false (some id), timer := none }
        | (stage, false) =>
          w.put { t with body := .serve device queue stage false writer, timer := none }) := by
  have hsettled := hp.step (.settle moment rfl rfl)
  cases hnext : Serving.settle w.settings moment x next with
  | mk stage begins =>
    have hsame : Serving.settle w.house.services.settings moment x next = (stage, begins) := hnext
    simp only [hsame] at hsettled
    refine ⟨_, _, _, hsettled, ?_, ?_⟩
    · cases begins <;> exact ensues_of_drifts (.refl _)
    · cases begins with
      | true => exact .serving (mem_put (List.mem_append_left _ ht) rfl) rfl rfl rfl nofun
      | false => exact .serving (mem_put ht rfl) rfl rfl rfl nofun

/-- A turn of the task that serves a connection takes its line on by steps of the line. -/
theorem leads_pollServe {w : World} {t : Task} (ht : t ∈ w.tasks) {device : Nat}
    {writer : Option TaskId} (hb : t.body = .serve device queue l.serving l.asked writer)
    (hl : l.standing = .serving) (hr : Recording l) (habort : t.aborted = true → l.Suspended) :
    Leads t.id device queue w.house.services l
      (w.pollServe t device queue l.serving l.asked writer) := by
  have ho : l.standing.isOver = false := by rw [hl]; rfl
  have hstart : Line.Path queue w.house.services l [] w.house.services l := .start
  simp only [pollServe]
  split
  · rename_i haborted
    exact leads_cutServe hstart (.refl _) hl (habort haborted) t t.id device writer .cancelled
  · obtain ⟨v, asked, standing, writing⟩ := l
    cases hl
    cases v with
    | opening x | reading x => exact leads_awaitArrival ht hb rfl rfl (hr.unasked rfl) _
    | working work =>
      have hcarried := carried_resume queue stages_working ho (some device) w rfl hr
      cases hresume : w.resume (some device) asked work with
      | mk w' progress =>
        simp only [hresume] at hcarried ⊢
        obtain ⟨hcarried, htasks⟩ := hcarried
        have ht' : t ∈ w'.tasks := htasks ▸ ht
        cases hcarried with
        | done hp => exact leads_settle hp ht' device writer
        | held hp => exact leads_hold hp ht' rfl (fun _ => ⟨_, _, rfl⟩) device writer _
        | crashed hp hd => exact leads_cutServe hp hd rfl (.asked rfl) t t.id device writer .crashed
    | leaving outcome work =>
      have hcarried := carried_resume queue (stages_leaving outcome) ho (some device) w rfl hr
      cases hresume : w.resume (some device) asked work with
      | mk w' progress =>
        simp only [hresume] at hcarried ⊢
        obtain ⟨hcarried, htasks⟩ := hcarried
        have ht' : t ∈ w'.tasks := htasks ▸ ht
        cases hcarried with
        | done hp =>
          have hreturned := hp.step (.ret rfl rfl)
          refine ⟨_, _, _, hreturned, ?_, .ended rfl⟩
          simp only [endServe, services_finish]
          cases writer <;> exact ⟨.refl, rfl, .inr rfl, rfl⟩
        | held hp => exact leads_hold hp ht' rfl (fun _ => ⟨_, _, rfl⟩) device writer _
        | crashed hp hd => exact leads_cutServe hp hd rfl (.asked rfl) t t.id device writer .crashed

theorem leads_pollFarewell {w : World} {t : Task} (ht : t ∈ w.tasks)
    {outcome : Except GatewayError Unit} {work : Work Session Session}
    (hs : l.serving = .leaving outcome work) (hl : l.standing = .parting) (hr : Recording l)
    (id : TaskId) (device : Nat) :
    Leads id device queue w.house.services l (w.pollFarewell t work l.asked) := by
  obtain ⟨v, asked, standing, writing⟩ := l
  cases hl
  cases hs
  have hcarried := carried_resume queue (stages_leaving outcome) rfl none w rfl hr
  simp only [pollFarewell]
  cases hresume : w.resume none asked work with
  | mk w' progress =>
    simp only [hresume] at hcarried
    obtain ⟨hcarried, htasks⟩ := hcarried
    have ht' : t ∈ w'.tasks := htasks ▸ ht
    cases hcarried with
    | done hp =>
      have hparted := hp.step (.part rfl rfl)
      exact ⟨_, _, _, hparted, ensues_of_drifts (.refl _), .ended rfl⟩
    | @held as x e k due hp =>
      refine ⟨_, _, _, hp, ?_, ?_⟩
      · cases due <;> exact ensues_of_drifts (.refl _)
      · cases due <;> exact .parting (mem_put ht' rfl) rfl rfl rfl fun _ => ⟨e, _, rfl⟩
    | crashed hp hd =>
      have hdropped := hp.step (.drop rfl (.asked rfl) rfl)
      exact ⟨_, _, _, hdropped, ensues_of_drifts hd, .ended rfl⟩

end World

end Rehearsal

end DeviceGateway
