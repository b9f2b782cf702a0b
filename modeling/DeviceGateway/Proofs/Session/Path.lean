import DeviceGateway.Proofs.Session.Line

/-!
# Lines can come as far as their services let them

If those that are called allow it, a line can connect, subscribe and leave.
-/

namespace DeviceGateway.Line
variable {queue : QueueId} {s₀ s t : Services} {l₀ l : Line} {as : List Act}

inductive Path (queue : QueueId) (s₀ : Services) (l₀ : Line) : List Act → Services → Line → Prop
  | start : Path queue s₀ l₀ [] s₀ l₀
  | step {as : List Act} {s t : Services} {l l' : Line} {act : Act} (hp : Path queue s₀ l₀ as s l)
      (hs : Step queue s l act t l') : Path queue s₀ l₀ (as ++ [act]) t l'

def answered (c : Call) (r : c.Reply) : List Act :=
  if c.isAwaited then [.ask c, .hear c r] else [.hear c r]

theorem Path.call (hp : Path queue s₀ l₀ as s l) (ho : l.standing.isOver = false)
    (hn : l.asked = false) {c : Call} {k : c.Reply → Serving} (hc : l.serving.call? = some ⟨c, k⟩)
    {r : c.Reply} (ht : s.Answers c r t) :
    Path queue s₀ l₀ (as ++ answered c r) t { l with serving := k r } := by
  obtain ⟨v, asked, standing, writer⟩ := l
  cases hn
  rw [answered]
  cases hawaited : c.isAwaited with
  | true =>
    have hasked := hp.step (.ask ho hc hawaited rfl)
    have hheard := hasked.step
      (.hear (l := { serving := v, asked := true, standing, writer }) ho hc hawaited.symm ht)
    simpa using hheard
  | false => exact hp.step (.hear ho hc hawaited.symm ht)

theorem Path.run {α : Type} {answer : Services → (c : Call) → Services × Outcome c.Reply}
    (ha : ∀ s c r t, answer s c = (t, .answer r) → s.Answers c r t) {f : Work Session α → Serving}
    (hf : ∀ x c k, (f (.call x c k)).call? = some ⟨c, fun r => f (k r)⟩) {work : Work Session α}
    (hp : Path queue s₀ l₀ as s l) (ho : l.standing.isOver = false) (hn : l.asked = false)
    (hw : l.serving = f work) {a : α} (hrun : work.run answer s = (t, .answer a)) :
    ∃ more, Path queue s₀ l₀ (as ++ more) t { l with serving := f (.done a) } := by
  induction work generalizing as s l with
  | done b =>
    cases hrun
    refine ⟨[], ?_⟩
    rw [← hw, List.append_nil]
    exact hp
  | call x c k ih =>
    rw [Activity.run] at hrun
    cases hc : answer s c with
    | mk u o =>
      rw [hc] at hrun
      cases o with
      | crash => cases hrun
      | answer r =>
        have hcalled := hp.call ho hn (by rw [hw]; exact hf x c k) (ha s c r u hc)
        obtain ⟨more, hmore⟩ := ih r hcalled ho hn rfl hrun
        exact ⟨answered c r ++ more, by rwa [List.append_assoc] at hmore⟩

def agree (client : ClientId) (s : Services) : (c : Call) → Services × Outcome c.Reply
  | .identify _ => (s, .answer (.ok client))
  | .authorize _ _ _ => (s, .answer (.ok ()))
  | .publish _ _ => (s, .answer (.ok ()))
  | .record _ => (s, .answer (.ok ()))
  | .send _ => (s, .answer (.ok ()))
  | c => s.answer 0 c

theorem answers_of_agree {client : ClientId} (s : Services) (c : Call) (r : c.Reply) (t : Services)
    (h : agree client s c = (t, .answer r)) : s.Answers c r t := by
  cases c with
  | identify | authorize | publish | record | send =>
    cases h
    exact .awaited rfl _ .refl rfl rfl rfl
  | _ => exact @Services.answers_of_answer s t 0 _ r h

def connectedAs (name : String) (protocol : Protocol) (secret : String) (client : ClientId)
    (m : Moment) : Session :=
  { Session.start name protocol with
    phase := .connected, client := some client, secret := secret, connectedAt := some m }

theorem path_connects (s : Services) (name : String) (protocol : Protocol) {bytes : Bytes}
    {secret : String} (hb : Packet.ofFrame? bytes = some (.connect secret)) (hne : secret ≠ "")
    (client : ClientId) (m : Moment) :
    ∃ as, Path queue s { serving := .opening (.start name protocol) } as s
      { serving := .reading (connectedAs name protocol secret client m), writer := .idle } := by
  have hstart : Path queue s { serving := .opening (.start name protocol) } [] s
      { serving := .opening (.start name protocol) } := .start
  have harrived := hstart.step
    (.arrive (l := { serving := .opening (.start name protocol) }) (fun _ => m) (.frame bytes) rfl
      rfl)
  have hrun : ((Session.start name protocol).opening s.settings m (.frame bytes)).run (agree client) s =
      (s, .answer (connectedAs name protocol secret client m, .begin)) := by
    simp only [Session.opening, hb, Session.welcome, Session.authConnect, Session.start, if_neg hne]
    rfl
  obtain ⟨more, hdone⟩ := harrived.run answers_of_agree (f := .working) (fun _ _ _ => rfl) rfl rfl rfl
    hrun
  have hbegun := hdone.step (.settle m rfl rfl)
  exact ⟨_, hbegun⟩

theorem Path.subscribes (hp : Path queue s₀ l₀ as s l) (ho : l.standing = .serving)
    (hn : l.asked = false) {x : Session} {client : ClientId} (hl : l.serving = .reading x)
    (hx : x.connected? = some client) {bytes : Bytes} {topic : String} {c : Channel}
    (hb : Packet.ofFrame? bytes = some (.subscribe [topic])) (hc : Topic.parseFilter topic = .ok c)
    (m : Moment) :
    ∃ more, Path queue s₀ l₀ (as ++ more)
      { s with broker :=
        s.broker.registerAll x.owner [(Topic.edgeFilter c, Topic.edgeFilter c)] queue } l := by
  obtain ⟨v, asked, standing, writer⟩ := l
  cases ho
  cases hn
  cases hl
  have harrived := hp.step
    (.arrive (l := { serving := .reading x, writer }) (fun _ => m) (.frame bytes) rfl rfl)
  have hrun : (x.reading s.settings (fun _ => m) queue (.frame bytes)).run (agree client) s =
      ({ s with broker :=
          s.broker.registerAll x.owner [(Topic.edgeFilter c, Topic.edgeFilter c)] queue },
        .answer (x, .proceed)) := by
    simp only [Session.reading, hb, Session.packet, Session.authSubscribe, Session.whenConnected,
      hx,
      Session.requestFilters, hc, Session.subscribe]
    rfl
  obtain ⟨more, hdone⟩ := harrived.run answers_of_agree (f := .working) (fun _ _ _ => rfl) rfl rfl rfl
    hrun
  have hsettled := hdone.step (.settle m rfl rfl)
  refine ⟨[.arrive (.frame bytes)] ++ more ++ [.settle], ?_⟩
  simpa [Serving.settle] using hsettled

theorem Path.leaves (hp : Path queue s₀ l₀ as s l) (ho : l.standing = .serving)
    (hn : l.asked = false)
    {x : Session} {client : ClientId} (hl : l.serving = .reading x) (hx : x.phase = .connected)
    (hc : x.client = some client) (m : Moment) :
    ∃ more, Path queue s₀ l₀ (as ++ more)
      { s with broker := (s.broker.deregisterOwner x.owner).1 }
      { l with
        serving := .leaving (.ok ()) (.done { x with phase := .disconnected })
        standing := .returned (.ok ()) } := by
  obtain ⟨v, asked, standing, writer⟩ := l
  cases ho
  cases hn
  cases hl
  have hstopped := hp.step
    (.arrive (l := { serving := .reading x, writer }) (fun _ => m) .stop rfl rfl)
  have hsettled := hstopped.step
    (.settle (l := { serving := .working (.done (x, .leave (.ok ()))), writer }) m rfl rfl)
  have hrun : (x.disconnect s.settings m).run (agree client) s =
      ({ s with broker := (s.broker.deregisterOwner x.owner).1 },
        .answer { x with phase := .disconnected }) := by
    simp only [Session.disconnect, hx, hc]
    rfl
  obtain ⟨more, hdone⟩ := hsettled.run answers_of_agree (f := .leaving (.ok ())) (fun _ _ _ => rfl)
    rfl rfl rfl hrun
  have hreturned := hdone.step (.ret rfl rfl)
  refine ⟨[.arrive .stop] ++ [.settle] ++ more ++ [.finish], ?_⟩
  simpa [Serving.settle] using hreturned

end DeviceGateway.Line
