import DeviceGateway.Proofs.Session.Conduct
import DeviceGateway.Proofs.Topic.Canonical
import DeviceGateway.Session.Serve

/-!
# What serving a connection calls

The calls made for a session tell how far it has come. Before it is connected nothing is recorded
or registered; then its connect is recorded, and after it subscribes and unsubscribes only; at the
end all that is registered under its name is removed and its disconnect is recorded. Every piece of
work of a serving keeps to this course under every reply, registers only what the policy allowed
for the client of the session, and sends no deliveries of its own.
-/

namespace DeviceGateway
open Activity (obeys_bind obeys_andThen)

abbrev Dealings.calls (h : Dealings) : List Call := h.map (·.1)

def Call.operation? : Call → Option Operation
  | .record e => some e.operation
  | _ => none

def operations (cs : List Call) : List Operation := cs.filterMap Call.operation?

theorem operations_append (cs ds : List Call) :
    operations (cs ++ ds) = operations cs ++ operations ds :=
  List.filterMap_append

theorem operations_concat_none {c : Call} (hc : c.operation? = none) (cs : List Call) :
    operations (cs ++ [c]) = operations cs := by
  simp [operations, hc]

theorem operations_concat_record (cs : List Call) (e : Event) :
    operations (cs ++ [.record e]) = operations cs ++ [e.operation] := by
  simp [operations, Call.operation?]

/-- A call that neither records, nor registers, nor removes all of an owner. -/
structure Call.Quiet (c : Call) : Prop where
  operation : c.operation? = none
  register : ∀ owner entries queue, c ≠ .register owner entries queue
  sweep : ∀ owner, c ≠ .deregisterOwner owner

theorem Call.quiet_identify (secret : String) : (identify secret).Quiet := ⟨rfl, nofun, nofun⟩

theorem Call.quiet_authorize (client : ClientId) (channel : ChannelId) (action : Action) :
    (authorize client channel action).Quiet := ⟨rfl, nofun, nofun⟩

theorem Call.quiet_publish (subject : String) (message : Message) :
    (publish subject message).Quiet := ⟨rfl, nofun, nofun⟩

theorem Call.quiet_deregister (owner token : String) : (deregister owner token).Quiet :=
  ⟨rfl, nofun, nofun⟩

theorem Call.quiet_send (p : Packet) : (send p).Quiet := ⟨rfl, nofun, nofun⟩

namespace Course

structure Before (cs : List Call) : Prop where
  silent : operations cs = []
  nothing : ∀ owner entries queue, Call.register owner entries queue ∉ cs
  unswept : ∀ owner, Call.deregisterOwner owner ∉ cs

structure During (cs : List Call) : Prop where
  told : ∃ changes, operations cs = .connect :: changes ∧
    ∀ o ∈ changes, o = .subscribe ∨ o = .unsubscribe
  unswept : ∀ owner, Call.deregisterOwner owner ∉ cs

/-- The session is over. If it was connected, its end was recorded and its registrations removed. -/
def After (owner : String) (cs : List Call) : Prop :=
  (operations cs = [] ∧ ∀ o entries queue, Call.register o entries queue ∉ cs) ∨
  (∃ changes, operations cs = .connect :: changes ++ [.disconnect] ∧
    ∀ o ∈ changes, o = .subscribe ∨ o = .unsubscribe) ∧ .deregisterOwner owner ∈ cs

variable {cs : List Call} {c : Call} {owner : String}

theorem before_nil : Before [] := ⟨rfl, by simp, by simp⟩

theorem Before.quiet (h : Before cs) (hc : c.Quiet) : Before (cs ++ [c]) where
  silent := (operations_concat_none hc.operation cs).trans h.silent
  nothing := fun o entries queue hmem => by
    rcases List.mem_append.1 hmem with hmem | hmem
    · exact h.nothing o entries queue hmem
    · exact hc.register o entries queue (List.mem_singleton.1 hmem).symm
  unswept := fun o hmem => by
    rcases List.mem_append.1 hmem with hmem | hmem
    · exact h.unswept o hmem
    · exact hc.sweep o (List.mem_singleton.1 hmem).symm

theorem Before.start (h : Before cs) {e : Event} (he : e.operation = .connect) :
    During (cs ++ [.record e]) where
  told := ⟨[], by rw [operations_concat_record, h.silent, he]; rfl, by simp⟩
  unswept := fun o hmem => by
    rcases List.mem_append.1 hmem with hmem | hmem
    · exact h.unswept o hmem
    · cases List.mem_singleton.1 hmem

theorem Before.after (h : Before cs) : After owner cs := .inl ⟨h.silent, h.nothing⟩

theorem During.unrecorded (h : During cs) (hc : c.operation? = none)
    (hs : ∀ o, c ≠ .deregisterOwner o) : During (cs ++ [c]) where
  told := by rw [operations_concat_none hc]; exact h.told
  unswept := fun o hmem => by
    rcases List.mem_append.1 hmem with hmem | hmem
    · exact h.unswept o hmem
    · exact hs o (List.mem_singleton.1 hmem).symm

theorem During.change (h : During cs) {e : Event}
    (he : e.operation = .subscribe ∨ e.operation = .unsubscribe) : During (cs ++ [.record e]) where
  told := by
    obtain ⟨changes, hops, hall⟩ := h.told
    refine ⟨changes ++ [e.operation], ?_, fun o ho => ?_⟩
    · rw [operations_concat_record, hops]
      rfl
    · rcases List.mem_append.1 ho with ho | ho
      · exact hall o ho
      · rw [List.mem_singleton.1 ho]
        exact he
  unswept := fun o hmem => by
    rcases List.mem_append.1 hmem with hmem | hmem
    · exact h.unswept o hmem
    · cases List.mem_singleton.1 hmem

theorem During.finish (h : During cs) {e : Event} (he : e.operation = .disconnect) :
    After owner (cs ++ [.deregisterOwner owner] ++ [.record e]) := by
  obtain ⟨changes, hops, hall⟩ := h.told
  refine .inr ⟨⟨changes, ?_, hall⟩, by simp⟩
  rw [operations_concat_record, operations_concat_none rfl, hops, he]

theorem After.length_operations (h : After owner cs) : (operations cs).length ≠ 1 := by
  rcases h with ⟨hnone, -⟩ | ⟨⟨changes, hops, -⟩, -⟩
  · simp [hnone]
  · simp [hops]

theorem During.operations_ne_nil (h : During cs) : operations cs ≠ [] := by
  obtain ⟨changes, hops, -⟩ := h.told
  simp [hops]

end Course

def Course : Phase → List Call → Prop
  | .connected => Course.During
  | .disconnected => fun _ => False
  | .fresh | .connecting | .rejected => Course.Before

def Identified (h : Dealings) (client : ClientId) : Prop :=
  ∃ secret, (⟨.identify secret, .ok client⟩ : Σ c : Call, c.Reply) ∈ h

def Welcomed (h : Dealings) : Prop := (⟨.send .connAck, .ok ()⟩ : Σ c : Call, c.Reply) ∈ h

def Cleared (h : Dealings) (e : String × String) : Prop :=
  ∃ c client, e = (Topic.edgeFilter c, Topic.edgeFilter c) ∧ Topic.parseFilter e.2 = .ok c ∧
    Identified h client ∧ Allowed h client c.id .subscribe

namespace Session

structure Fits (owner : String) (h : Dealings) (cs : List Call) (s : Session) : Prop where
  owner : s.owner = owner
  course : Course s.phase cs
  client : s.phase = .connecting ∨ s.phase = .connected →
    ∃ client, s.client = some client ∧ Identified h client

structure Ready (owner : String) (h : Dealings) (s : Session) : Prop where
  connected : s.phase = .connected
  fits : s.Fits owner h h.calls
  welcomed : Welcomed h

/-- What a serving may call while it shows `s`. -/
structure Proper (owner : String) (queue : QueueId) (h : Dealings) (s : Session) (c : Call) :
    Prop where
  fits : s.Fits owner h (h.calls ++ [c])
  register : ∀ o entries q, c = .register o entries q →
    o = owner ∧ q = queue ∧ Welcomed h ∧ ∀ e ∈ entries, Cleared h e
  send : ∀ topic payload, c ≠ .send (.deliver topic payload)

structure Settled (owner : String) (h : Dealings) (x : Session × Next) : Prop where
  fits : x.1.Fits owner h h.calls
  goesOn : (∀ outcome, x.2 ≠ .leave outcome) → x.1.phase = .connected ∧ Welcomed h

variable {s t : Session} {owner : String} {h h' : Dealings} {cs : List Call} {c : Call}
variable {queue : QueueId} {st : Settings} {m : Moment} {ms : Moments} {gs : List Grant}

theorem Fits.mono (hf : s.Fits owner h cs) (hh : h <+: h') : s.Fits owner h' cs where
  owner := hf.owner
  course := hf.course
  client := fun hs => by
    obtain ⟨client, hc, secret, hi⟩ := hf.client hs
    exact ⟨client, hc, secret, hh.subset hi⟩

theorem Fits.quiet (hf : s.Fits owner h cs) (hc : c.Quiet) : s.Fits owner h (cs ++ [c]) where
  owner := hf.owner
  course := by
    have hcourse := hf.course
    revert hcourse
    cases s.phase with
    | connected => exact fun hd => hd.unrecorded hc.operation hc.sweep
    | disconnected => exact id
    | _ => exact fun hb => hb.quiet hc
  client := hf.client

theorem Fits.unswept (hf : s.Fits owner h cs) (o : String) : .deregisterOwner o ∉ cs := by
  have hcourse := hf.course
  revert hcourse
  cases s.phase with
  | connected => exact fun hd => hd.unswept o
  | disconnected => exact False.elim
  | _ => exact fun hb => hb.unswept o

theorem Fits.connected_of_operations (hf : s.Fits owner h cs) (hops : operations cs ≠ []) :
    s.phase = .connected := by
  have hcourse := hf.course
  revert hcourse
  cases s.phase with
  | connected => exact fun _ => rfl
  | disconnected => exact False.elim
  | _ => exact fun hb => absurd hb.silent hops

theorem Fits.answered {r : c.Reply} (hf : s.Fits owner h (h.calls ++ [c])) :
    s.Fits owner (h ++ [⟨c, r⟩]) (Dealings.calls (h ++ [⟨c, r⟩])) := by
  have hmono := hf.mono (List.prefix_append h [⟨c, r⟩])
  simpa [Dealings.calls] using hmono

theorem proper_of_quiet (hf : s.Fits owner h h.calls) (hc : c.Quiet)
    (hsend : ∀ topic payload, c ≠ .send (.deliver topic payload)) : s.Proper owner queue h c where
  fits := hf.quiet hc
  register := fun o entries q he => absurd he (hc.register o entries q)
  send := hsend

theorem Fits.course_connected (hf : s.Fits owner h cs) (hs : s.phase = .connected) :
    Course.During cs := by
  have hcourse := hf.course
  rwa [hs] at hcourse

theorem Conduct.proper (hc : s.Conduct gs queue t c) (hr : s.Ready owner h)
    (hgs : ∀ g ∈ gs, s.Given h g) : t.Proper owner queue h c := by
  have hs := hr.connected
  have hduring := hr.fits.course_connected hs
  cases hc with
  | identify hfresh => simp [hs] at hfresh
  | recordStart hconnecting => simp [hs] at hconnecting
  | authorize _ channel action =>
    exact proper_of_quiet hr.fits (Call.quiet_authorize _ channel action) nofun
  | publish _ _ _ lead payload m =>
    exact proper_of_quiet hr.fits (Call.quiet_publish _ _) nofun
  | deregister _ token => exact proper_of_quiet hr.fits (Call.quiet_deregister _ token) nofun
  | recordChange _ _ ho st m =>
    refine ⟨⟨hr.fits.owner, ?_, hr.fits.client⟩, nofun, nofun⟩
    rw [hs]
    exact hduring.change ho
  | register _ ha =>
    refine ⟨⟨hr.fits.owner, ?_, hr.fits.client⟩, fun o entries q he => ?_, nofun⟩
    · rw [hs]
      exact hduring.unrecorded rfl nofun
    · cases he
      refine ⟨hr.fits.owner, rfl, hr.welcomed, fun e he => ?_⟩
      obtain ⟨g, hg, rfl⟩ := List.mem_map.1 he
      obtain ⟨hread, client, hclient, hallowed⟩ := hgs g hg
      obtain ⟨client', hclient', hidentified⟩ := hr.fits.client (.inr hs)
      have hsame : client' = client :=
        Option.some.inj (hclient'.symm.trans (connected?_eq_some_iff.1 hclient).2)
      have haction := ha g hg
      rw [Grant.Readable, if_neg (by simp [haction])] at hread
      obtain ⟨topic, htopic⟩ := hread
      obtain ⟨ts, hts, hsub⟩ := Topic.parseFilter_ok htopic
      exact ⟨g.channel, client, rfl, Topic.parseFilter_edgeFilter hts hsub, hsame ▸ hidentified,
        haction ▸ hallowed⟩

theorem Ready.obeys {α : Type} {Q : Dealings → α → Prop} {a : Work Session α}
    (hr : s.Ready owner h) (ha : a.Obeys (fun _ => s.Conduct gs queue) Q h)
    (hgs : ∀ g ∈ gs, s.Given h g) :
    a.Obeys (fun h t c => t.Proper owner queue h c) (fun h x => Q h x ∧ s.Ready owner h) h := by
  have hkept := ha.keep (I := fun h => s.Ready owner h ∧ ∀ g ∈ gs, s.Given h g) ⟨hr, hgs⟩ ?_
  · exact hkept.mono (fun _ _ _ _ hc => hc.1.proper hc.2.1 hc.2.2) fun _ _ _ hx => ⟨hx.1, hx.2.1⟩
  · intro h t c r hc hI
    have hh := List.prefix_append h [⟨c, r⟩]
    have hproper := hc.proper hI.1 hI.2
    rw [hc.eq_of_connected hI.1.connected] at hproper
    exact ⟨⟨hI.1.connected, hproper.fits.answered, hh.subset hI.1.welcomed⟩,
      fun g hg => (hI.2 g hg).mono hh⟩

theorem Ready.obeys_of_request {α : Type} {Q : Dealings → α → Prop} {a : Work Session α}
    (hr : s.Ready owner h) (ha : a.Obeys (fun _ => s.Conduct [] queue) Q h) :
    a.Obeys (fun h t c => t.Proper owner queue h c) (fun h x => Q h x ∧ s.Ready owner h) h :=
  hr.obeys ha nofun

theorem sendThen_obeys {p : Packet} {next : Next} (hf : s.Fits owner h h.calls)
    (hp : ∀ topic payload, p ≠ .deliver topic payload)
    (hnext : (∀ outcome, next ≠ .leave outcome) →
      s.phase = .connected ∧ Welcomed (h ++ [⟨.send p, .ok ()⟩])) :
    (s.sendThen p next).Obeys (fun h t c => t.Proper owner queue h c) (Settled owner) h := by
  have hproper : s.Proper owner queue h (.send p) :=
    proper_of_quiet hf (Call.quiet_send p) fun topic payload he => by
      cases he
      exact hp topic payload rfl
  refine ⟨hproper, fun r => ?_⟩
  cases r with
  | ok u => exact ⟨hproper.fits.answered, hnext⟩
  | error e => exact ⟨hproper.fits.answered, fun hl => absurd rfl (hl _)⟩

theorem refuse_obeys (hf : s.Fits owner h h.calls) (code : UInt16) (text : String)
    (e : GatewayError) :
    (s.refuse code text e).Obeys (fun h t c => t.Proper owner queue h c) (Settled owner) h :=
  sendThen_obeys hf nofun fun hl => absurd rfl (hl _)

theorem Ready.sendThen {p : Packet} (hr : s.Ready owner h)
    (hp : ∀ topic payload, p ≠ .deliver topic payload) :
    (s.sendThen p .proceed).Obeys (fun h t c => t.Proper owner queue h c) (Settled owner) h :=
  sendThen_obeys hr.fits hp fun _ => ⟨hr.connected, List.mem_append_left _ hr.welcomed⟩

theorem settled_of_leave {outcome : Except GatewayError Unit} (hf : s.Fits owner h h.calls) :
    Settled owner h (s, .leave outcome) := ⟨hf, fun hl => absurd rfl (hl _)⟩

theorem reply_obeys {α : Type} {answer : α → Option Packet} {work : Attempt Session α}
    (hw : work.Obeys (fun h t c => t.Proper owner queue h c) (fun h _ => s.Ready owner h) h)
    (ha : ∀ x topic payload, answer x ≠ some (.deliver topic payload)) :
    (s.reply answer work).Obeys (fun h t c => t.Proper owner queue h c) (Settled owner) h := by
  refine obeys_bind.2 (hw.imp fun h' _ x hr => ?_)
  cases x with
  | error e => exact hr.sendThen nofun
  | ok x =>
    cases hp : answer x with
    | none =>
      simp only [hp]
      exact ⟨hr.fits, fun _ => ⟨hr.connected, hr.welcomed⟩⟩
    | some p =>
      simp only [hp]
      exact hr.sendThen fun topic payload he => ha x topic payload (he ▸ hp)

theorem Ready.packet (hr : s.Ready owner h) (p : Packet) :
    (s.packet st ms queue p).Obeys (fun h t c => t.Proper owner queue h c) (Settled owner) h := by
  cases p with
  | publish topic payload =>
    simp only [Session.packet]
    refine reply_obeys (obeys_andThen.2 ?_) ?_
    rotate_left
    · intro x topic payload he
      cases he
    refine (hr.obeys_of_request (authPublish_obeys topic)).imp fun h₁ _ r hr₁ => ?_
    cases r with
    | error e => exact hr₁.2
    | ok g =>
      have hgiven : ∀ g' ∈ [g], s.Given h₁ g' := by
        intro g' hg'
        rw [List.mem_singleton.1 hg']
        exact (hr₁.1 g rfl).2
      exact (hr₁.2.obeys (publish_obeys (List.mem_singleton_self g) payload) hgiven).imp
        fun _ _ _ hx => hx.2
  | subscribe topics =>
    simp only [Session.packet]
    refine reply_obeys (obeys_andThen.2 ?_) ?_
    rotate_left
    · intro x topic payload he
      cases he
    refine (hr.obeys_of_request (authSubscribe_obeys topics)).imp fun h₁ _ r hr₁ => ?_
    cases r with
    | error e => exact hr₁.2
    | ok given =>
      exact (hr₁.2.obeys subscribe_obeys fun g hg => (hr₁.1 given rfl g hg).2).imp
        fun _ _ _ hx => hx.2
  | unsubscribe topics =>
    simp only [Session.packet]
    refine reply_obeys (obeys_andThen.2 ?_) ?_
    rotate_left
    · intro x topic payload he
      cases he
    refine (hr.obeys_of_request (authUnsubscribe_obeys topics)).imp fun h₁ _ r hr₁ => ?_
    cases r with
    | error e => exact hr₁.2
    | ok given =>
      exact (hr₁.2.obeys unsubscribe_obeys fun g hg => (hr₁.1 given rfl g hg).2).imp
        fun _ _ _ hx => hx.2
  | disconnect => exact settled_of_leave hr.fits
  | connect secret => exact refuse_obeys hr.fits _ _ _
  | _ => exact hr.sendThen nofun

theorem Ready.reading (hr : s.Ready owner h) (a : Arrival) :
    (s.reading st ms queue a).Obeys (fun h t c => t.Proper owner queue h c) (Settled owner) h := by
  cases a with
  | frame bytes =>
    simp only [Session.reading]
    split
    · exact refuse_obeys hr.fits _ _ _
    · rename_i p _
      exact hr.packet p
  | _ => exact settled_of_leave hr.fits

theorem welcome_obeys (hs : s.phase = .fresh) (hf : s.Fits owner h h.calls) (secret : String) :
    (s.welcome st m secret).Obeys (fun h t c => t.Proper owner queue h c) (Settled owner) h := by
  have hbefore : Course.Before h.calls := by
    have hcourse := hf.course
    rwa [hs] at hcourse
  have hfits : ∀ {h' : Dealings} {t : Session}, t.owner = s.owner → t.phase = .rejected →
      Course.Before h'.calls → t.Fits owner h' h'.calls := by
    intro h' t ho ht hb
    exact ⟨ho.trans hf.owner, by rw [ht]; exact hb, by simp [ht]⟩
  simp only [welcome, authConnect, hs, ne_eq, not_true_eq_false, if_false]
  split
  · exact refuse_obeys (s := { s with secret := secret, phase := .rejected })
      (hfits rfl rfl hbefore) _ _ _
  · have hasked : ({ s with secret := secret } : Session).Fits owner h h.calls :=
      ⟨hf.owner, hf.course, hf.client⟩
    refine ⟨proper_of_quiet (by simpa only [hs] using hasked) (Call.quiet_identify secret)
      (by simp), fun r => ?_⟩
    have hquiet : Course.Before (Dealings.calls (h ++ [⟨.identify secret, r⟩])) := by
      simpa [Dealings.calls] using hbefore.quiet (Call.quiet_identify secret)
    cases r with
    | error e =>
      exact refuse_obeys (s := { s with secret := secret, phase := .rejected })
        (hfits rfl rfl hquiet) _ _ _
    | ok client =>
      let h₁ : Dealings := h ++ [⟨.identify secret, .ok client⟩]
      let t : Session := { s with
        secret := secret, phase := .connected, client := some client, connectedAt := some m }
      have hconnected : t.Fits owner h₁
          (h₁.calls ++ [.record (.ofSession .connect client s.protocol st.instanceName m)]) :=
        ⟨hf.owner, hquiet.start rfl, fun _ => ⟨client, rfl, secret, by simp [h₁]⟩⟩
      refine ⟨⟨hconnected, by simp, by simp⟩, fun r => ?_⟩
      exact sendThen_obeys hconnected.answered (by simp) fun _ => ⟨rfl, by simp [Welcomed]⟩

theorem opening_obeys (hs : s.phase = .fresh) (hf : s.Fits owner h h.calls) (a : Arrival) :
    (s.opening st m a).Obeys (fun h t c => t.Proper owner queue h c) (Settled owner) h := by
  cases a with
  | frame bytes =>
    simp only [Session.opening]
    split
    · exact refuse_obeys hf _ _ _
    · exact welcome_obeys hs hf _
    · exact refuse_obeys hf _ _ _
  | _ => exact settled_of_leave hf

/-- What disconnecting calls, after the calls `before`. A session that was connected has its
registrations removed first, and once its end is being recorded all has been done. -/
def Leaves (owner : String) (before : List Call) (h : Dealings) (_ : Session) (c : Call) : Prop :=
  (c = .deregisterOwner owner ∧ Course.During (before ++ h.calls)) ∨
  ∃ e, c = .record e ∧ Course.After owner (before ++ h.calls ++ [c])

theorem Fits.disconnect (hf : s.Fits owner h cs) :
    (s.disconnect st m).Obeys (Leaves owner cs)
      (fun (h : Dealings) _ => Course.After owner (cs ++ h.calls)) [] := by
  have hdone : Course.Before cs → Course.After owner (cs ++ Dealings.calls []) := by
    intro hbefore
    simpa using hbefore.after
  have hcourse := hf.course
  simp only [Session.disconnect]
  split
  · rename_i hs
    rw [hs] at hcourse
    exact hcourse.elim
  · rename_i hs
    rw [hs] at hcourse
    exact hdone hcourse
  · rename_i hs
    rw [hs] at hcourse
    exact hdone hcourse
  · rename_i hs
    rw [hs] at hcourse
    exact hdone hcourse
  · rename_i hs
    rw [hs] at hcourse
    have hduring : Course.During cs := hcourse
    obtain ⟨client, hclient, -⟩ := hf.client (.inr hs)
    refine ⟨.inl ⟨by rw [hf.owner], by simpa using hduring⟩, fun n => ?_⟩
    simp only [hclient]
    have hafter : Course.After owner (cs ++ [.deregisterOwner owner] ++
        [.record (.ofSession .disconnect client s.protocol st.instanceName m)]) :=
      hduring.finish rfl
    refine ⟨.inr ⟨_, rfl, ?_⟩, fun r => ?_⟩
    · simpa [hf.owner] using hafter
    · simpa [Activity.Obeys, Activity.bind, hf.owner] using hafter

end Session

end DeviceGateway
