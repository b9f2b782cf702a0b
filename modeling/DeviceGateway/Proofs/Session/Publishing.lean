import DeviceGateway.Proofs.Session.Rounds
import DeviceGateway.Proofs.Wire.RoundTrip
import Mathlib.Data.List.Forall2

/-!
# What a line hands to the bus

A publish is granted if its topic can be read and the policy allows it when it is asked for it, in
the round of that packet. What a line hands to the bus are the publishes that were granted to it,
one for one and in their order, with the payload as it came and in the name of the client for whom
the secret of the first frame was accepted. Before a secret is accepted, nothing is called but the
authenticator and the connection.
-/

namespace DeviceGateway
open Activity (obeys_bind obeys_andThen)

def published (cs : List Call) : List (String × Message) :=
  cs.filterMap fun
    | .publish subject message => some (subject, message)
    | _ => none

theorem published_append (cs ds : List Call) :
    published (cs ++ ds) = published cs ++ published ds :=
  List.filterMap_append

instance (h : Dealings) (client : ClientId) (channel : ChannelId) (action : Action) :
    Decidable (Allowed h client channel action) :=
  decidable_of_iff (h.any fun
    | ⟨.authorize k c a, .ok _⟩ => k = client ∧ c = channel ∧ a = action
    | _ => false) <| by
    rw [List.any_eq_true, Allowed]
    constructor
    · rintro ⟨⟨c, r⟩, hmem, hc⟩
      cases c with
      | authorize k c a =>
        cases r with
        | ok u =>
          obtain ⟨rfl, rfl, rfl⟩ := of_decide_eq_true hc
          exact hmem
        | error e => cases hc
      | _ => cases hc
    · exact fun hmem => ⟨_, hmem, by simp⟩

/-- The channel and the payload of the packet of a round, if it is a publish that was granted. -/
def Round.granted? (client : ClientId) (r : Round) : Option (Channel × Bytes) :=
  match r.arrival with
  | .frame bytes =>
    match Packet.ofFrame? bytes with
    | some (.publish topic payload) =>
      match Topic.parse topic with
      | .ok c => if Allowed r.dealings client c.id .publish then some (c, payload) else none
      | .error _ => none
    | _ => none
  | _ => none

/-- The subject and the message carry what was granted, in the name of `client`. -/
def Carries (st : Settings) (client : ClientId) (protocol : Protocol) (g : Channel × Bytes)
    (p : String × Message) : Prop :=
  p.1 = Topic.subject st.subjectLead g.1 ∧
    ∃ created, p.2 = ⟨g.1.id, g.1.subtopic, client, protocol, g.2, created⟩

def Matched (st : Settings) (client : ClientId) (protocol : Protocol) (rs : List Round)
    (cs : List Call) : Prop :=
  List.Forall₂ (Carries st client protocol) (rs.filterMap (Round.granted? client)) (published cs)

structure Call.Mute (c : Call) : Prop where
  publish : ∀ subject message, c ≠ .publish subject message
  identify : ∀ secret, c ≠ .identify secret

theorem Call.mute_authorize (client : ClientId) (channel : ChannelId) (action : Action) :
    (authorize client channel action).Mute := ⟨by simp, by simp⟩

theorem Call.mute_send (p : Packet) : (send p).Mute := ⟨by simp, by simp⟩

theorem published_eq_nil {cs : List Call} (hcs : ∀ c ∈ cs, c.Mute) : published cs = [] := by
  refine List.filterMap_eq_nil_iff.2 fun c hc => ?_
  cases c with
  | publish subject message => exact absurd rfl ((hcs _ hc).publish subject message)
  | _ => rfl

section
variable {st : Settings} {client : ClientId} {protocol : Protocol} {rs rs' : List Round}
variable {cs cs' : List Call} {r : Round}

theorem Matched.append (h : Matched st client protocol rs cs)
    (h' : Matched st client protocol rs' cs') :
    Matched st client protocol (rs ++ rs') (cs ++ cs') := by
  rw [Matched, List.filterMap_append, published_append]
  exact List.rel_append h h'

structure Keeps (st : Settings) (client : ClientId) (protocol : Protocol) (r : Round)
    (cs : List Call) : Prop where
  matched : Matched st client protocol [r] cs
  known : ∀ secret, .identify secret ∉ cs

theorem keeps_of_mute (hr : r.granted? client = none) (hcs : ∀ c ∈ cs, c.Mute) :
    Keeps st client protocol r cs where
  matched := by simp [Matched, hr, published_eq_nil hcs]
  known := fun secret hmem => (hcs _ hmem).identify secret rfl

theorem keeps_of_grant {g : Channel × Bytes} (hr : r.granted? client = some g) {subject : String}
    {message : Message} (hp : Carries st client protocol g (subject, message))
    {before after : List Call}
    (hb : ∀ c ∈ before, c.Mute) (ha : ∀ c ∈ after, c.Mute) :
    Keeps st client protocol r (before ++ .publish subject message :: after) where
  matched := by
    have hpublished : published (before ++ .publish subject message :: after) =
        [(subject, message)] := by
      rw [published_append, published_eq_nil hb]
      exact congrArg ((subject, message) :: ·) (published_eq_nil ha)
    rw [Matched, hpublished, List.filterMap_cons, hr]
    exact .cons hp .nil
  known := fun secret hmem => by
    rcases List.mem_append.1 hmem with hmem | hmem
    · exact (hb _ hmem).identify secret rfl
    · rcases List.mem_cons.1 hmem with hmem | hmem
      · cases hmem
      · exact (ha _ hmem).identify secret rfl

theorem obeys_keeps_of_mute {a : Arrival} {x : Session} {w : Work Session (Session × Next)}
    (hr : ∀ h, Round.granted? client ⟨a, h⟩ = none)
    (hw : w.Obeys (fun _ _ c => c.Mute) (fun _ y => y.1 = x) []) :
    w.Obeys (fun (h : Dealings) _ c => Keeps st client protocol ⟨a, h⟩ (h.calls ++ [c]))
      (fun (h : Dealings) y => y.1 = x ∧ Keeps st client protocol ⟨a, h⟩ h.calls) [] := by
  have hkept := hw.keep (I := fun h => ∀ c ∈ Dealings.calls h, c.Mute) (by simp)
    fun h _ c r hc hI => by
      rw [Dealings.calls, List.map_append]
      exact List.forall_mem_append.2 ⟨hI, by simpa using hc⟩
  refine hkept.mono (fun h _ t c hc => keeps_of_mute (hr h) ?_)
    fun h _ y hy => ⟨hy.1, keeps_of_mute (hr h) hy.2⟩
  exact List.forall_mem_append.2 ⟨hc.2, by simpa using hc.1⟩

end

namespace Session
variable {s x : Session} {gs : List Grant} {queue : QueueId} {st : Settings} {m : Moments}
variable {h : Dealings} {client : ClientId}

theorem Conduct.mute {t : Session} {c : Call} (hc : s.Conduct gs queue t c)
    (hs : s.phase = .connected) (hgs : ∀ g ∈ gs, g.action ≠ .publish) : c.Mute := by
  cases hc with
  | identify hfresh => simp [hs] at hfresh
  | publish _ hg ha => exact absurd ha (hgs _ hg)
  | _ => exact ⟨by simp, by simp⟩

theorem sendThen_mute (p : Packet) (next : Next) :
    (s.sendThen p next).Obeys (fun _ _ c => c.Mute) (fun _ y => y.1 = s) h := by
  refine ⟨⟨by simp, by simp⟩, fun r => ?_⟩
  cases r <;> exact rfl

theorem reply_mute {α : Type} {answer : α → Option Packet} {work : Attempt Session α}
    (hw : work.Obeys (fun _ _ c => c.Mute) (fun _ _ => True) h) :
    (s.reply answer work).Obeys (fun _ _ c => c.Mute) (fun _ y => y.1 = s) h := by
  refine obeys_bind.2 (hw.imp fun h' _ r _ => ?_)
  cases r with
  | error e => exact sendThen_mute _ _
  | ok a =>
    cases hp : answer a with
    | none => simp only [hp]; exact rfl
    | some p => simp only [hp]; exact sendThen_mute p _

theorem mute_of_request (queue : QueueId) {given : List Grant → Attempt Session (List String)}
    {action : Action} {ask : Attempt Session (List Grant)} (hs : s.connected? = some client)
    (ha : action ≠ .publish)
    (hask : ask.Obeys (fun _ => s.Conduct [] queue)
      (fun h' r => ∀ gs, r = .ok gs → ∀ g ∈ gs, g.action = action ∧ s.Given h' g) h)
    (huse : ∀ gs h', (given gs).Obeys (fun _ => s.Conduct gs queue) (fun _ _ => True) h') :
    (ask.andThen given).Obeys (fun _ _ c => c.Mute) (fun _ _ => True) h := by
  have hphase := (connected?_eq_some_iff.1 hs).1
  refine obeys_andThen.2 (hask.mono (fun _ _ _ _ hc => hc.mute hphase (by simp)) ?_)
  intro h' _ r hr
  cases r with
  | error e => trivial
  | ok gs =>
    refine (huse gs h').mono (fun _ _ _ _ hc => hc.mute hphase fun g hg => ?_)
      fun _ _ _ _ => trivial
    rw [(hr gs rfl g hg).1]
    exact ha

theorem packet_publish (hs : x.connected? = some client) (topic : String) (payload : Bytes) :
    x.packet st m queue (.publish topic payload) =
      match Topic.parse topic with
      | .error e => x.sendThen (errorPacket (.authorization (.topic e))) .proceed
      | .ok c => .call x (.authorize client c.id .publish) fun
        | .error e => x.sendThen (errorPacket (.authorization (.access e))) .proceed
        | .ok () =>
          .call x
            (.publish (Topic.subject st.subjectLead c) (.to c client x.protocol payload (m 0))) fun
          | .ok () => .done (x, .proceed)
          | .error e => x.sendThen (errorPacket (.forwarding e)) .proceed := by
  simp only [packet, reply, authPublish, publish, whenConnected, hs]
  cases Topic.parse topic with
  | error e => rfl
  | ok c =>
    refine congrArg (Activity.call x _) (funext fun r => ?_)
    cases r with
    | error e => rfl
    | ok u =>
      refine congrArg (Activity.call x _) (funext fun r => ?_)
      cases r <;> rfl

theorem publish_keeps (hs : x.connected? = some client) {bytes payload : Bytes} {topic : String}
    (hb : Packet.ofFrame? bytes = some (.publish topic payload)) :
    (x.packet st m queue (.publish topic payload)).Obeys
      (fun (h : Dealings) _ c => Keeps st client x.protocol ⟨.frame bytes, h⟩ (h.calls ++ [c]))
      (fun (h : Dealings) y => y.1 = x ∧
        Keeps st client x.protocol ⟨.frame bytes, h⟩ h.calls) [] := by
  rw [packet_publish hs]
  cases hc : Topic.parse topic with
  | error e =>
    exact obeys_keeps_of_mute (fun h => by simp [Round.granted?, hb, hc]) (sendThen_mute _ _)
  | ok c =>
    have hgranted : ∀ d : Dealings, Round.granted? client ⟨.frame bytes, d⟩ =
        if Allowed d client c.id .publish then some (c, payload) else none := by
      simp [Round.granted?, hb, hc]
    have hmute : ∀ e ∈ [Call.authorize client c.id .publish], e.Mute := by
      simpa using Call.mute_authorize client c.id .publish
    have hcarries : Carries st client x.protocol (c, payload) (Topic.subject st.subjectLead c,
        .to c client x.protocol payload (m 0)) := ⟨rfl, (m 0).nanos, rfl⟩
    refine ⟨keeps_of_mute (by simp [hgranted, Allowed]) hmute, fun r => ?_⟩
    cases r with
    | error e =>
      have hsent : ∀ p, ∀ e ∈ [Call.authorize client c.id .publish, .send p], e.Mute := by
        simp [Call.mute_authorize, Call.mute_send]
      refine ⟨keeps_of_mute (by simp [hgranted, Allowed]) (hsent _), fun r => ?_⟩
      cases r <;> exact ⟨rfl, keeps_of_mute (by simp [hgranted, Allowed]) (hsent _)⟩
    | ok u =>
      have hsent : ∀ p, ∀ e ∈ [Call.send p], e.Mute := by simp [Call.mute_send]
      have hallowed : ∀ d : Dealings, Round.granted? client
          ⟨.frame bytes, ⟨.authorize client c.id .publish, .ok u⟩ :: d⟩ = some (c, payload) := by
        simp [hgranted, Allowed]
      refine ⟨keeps_of_grant (hallowed []) hcarries hmute (by simp), fun r => ?_⟩
      cases r with
      | ok u => exact ⟨rfl, keeps_of_grant (hallowed _) hcarries hmute (by simp)⟩
      | error e =>
        refine ⟨keeps_of_grant (hallowed _) hcarries hmute (hsent _), fun r => ?_⟩
        cases r <;> exact ⟨rfl, keeps_of_grant (hallowed _) hcarries hmute (hsent _)⟩

theorem packet_mute (hs : x.connected? = some client) {p : Packet}
    (hp : ∀ topic payload, p ≠ .publish topic payload) :
    (x.packet st m queue p).Obeys (fun _ _ c => c.Mute) (fun _ y => y.1 = x) h := by
  cases p with
  | publish topic payload => exact absurd rfl (hp topic payload)
  | subscribe topics =>
    simp only [packet]
    exact reply_mute (mute_of_request queue hs (by decide) (authSubscribe_obeys topics)
      fun gs h' => subscribe_obeys)
  | unsubscribe topics =>
    simp only [packet]
    exact reply_mute (mute_of_request queue hs (by decide) (authUnsubscribe_obeys topics)
      fun gs h' => unsubscribe_obeys)
  | disconnect => exact rfl
  | _ => exact sendThen_mute _ _

theorem reading_keeps (st : Settings) (m : Moments) (queue : QueueId)
    (hs : x.connected? = some client) (a : Arrival) :
    (x.reading st m queue a).Obeys
      (fun (h : Dealings) _ c => Keeps st client x.protocol ⟨a, h⟩ (h.calls ++ [c]))
      (fun (h : Dealings) y => y.1 = x ∧ Keeps st client x.protocol ⟨a, h⟩ h.calls) [] := by
  cases a with
  | frame bytes =>
    simp only [reading]
    split
    · rename_i hb
      exact obeys_keeps_of_mute (fun h => by simp [Round.granted?, hb]) (sendThen_mute _ _)
    · rename_i p hb
      by_cases hp : ∃ topic payload, p = .publish topic payload
      · obtain ⟨topic, payload, rfl⟩ := hp
        exact publish_keeps hs hb
      · have hother : ∀ topic payload, p ≠ .publish topic payload :=
          fun topic payload he => hp ⟨topic, payload, he⟩
        refine obeys_keeps_of_mute (fun h => ?_) (packet_mute hs hother)
        simp only [Round.granted?, hb]
        split
        · rename_i topic payload he
          exact absurd (Option.some.inj he) (hother topic payload)
        · rfl
  | _ => exact obeys_keeps_of_mute (fun h => rfl) rfl

end Session

def Greeted (h : Dealings) : Prop := ∃ client, Identified h client

structure Call.Greets (a : Arrival) (h : Dealings) (c : Call) : Prop where
  publish : ∀ subject message, c ≠ .publish subject message
  identify : ∀ secret, c = .identify secret →
    h = [] ∧ ∃ bytes, a = .frame bytes ∧ Packet.ofFrame? bytes = some (.connect secret)
  stranger : (∃ secret, c = .identify secret) ∨ (∃ p, c = .send p) ∨ Greeted h

namespace Session
variable {s : Session} {st : Settings} {m : Moment} {h : Dealings}

theorem refuse_greets (hs : s.phase ≠ .connected) {a : Arrival} (code : UInt16) (text : String)
    (e : GatewayError) :
    (s.refuse code text e).Obeys (fun h t c => c.Greets a h ∧ (t.phase = .connected → Greeted h))
      (fun h y => (y.1.phase = .connected → Greeted h) ∧
        ((∀ outcome, y.2 ≠ .leave outcome) → ∃ client, Identified h client ∧
          y.1.connected? = some client ∧ y.1.protocol = s.protocol)) h := by
  refine ⟨⟨⟨by simp, by simp, .inr (.inl ⟨_, rfl⟩)⟩, fun hc => absurd hc hs⟩, fun r => ?_⟩
  cases r <;> exact ⟨fun hc => absurd hc hs, fun hn => absurd rfl (hn _)⟩

theorem opening_connect (hs : s.phase = .fresh) {bytes : Bytes} {secret : String}
    (hb : Packet.ofFrame? bytes = some (.connect secret)) :
    s.opening st m (.frame bytes) =
      if secret = "" then
        { s with secret := secret, phase := .rejected }.refuse Packet.unauthorized "unauthorized"
          (.authentication .missingCredential)
      else .call { s with secret := secret } (.identify secret) fun
        | .error e =>
          { s with secret := secret, phase := .rejected }.refuse Packet.unauthorized "unauthorized"
            (.authentication e)
        | .ok client =>
          let x := { s with
            secret := secret, phase := .connected, client := some client, connectedAt := some m }
          .call x (.record (.ofSession .connect client s.protocol st.instanceName m)) fun _ =>
            x.sendThen .connAck .begin := by
  simp only [opening, hb, welcome, authConnect, hs, ne_eq, not_true_eq_false, if_false]
  by_cases hempty : secret = ""
  · simp only [hempty, if_true]
    rfl
  · simp only [hempty, if_false]
    refine congrArg (Activity.call _ _) (funext fun r => ?_)
    cases r <;> rfl

theorem opening_greets (st : Settings) (m : Moment) (hs : s.phase = .fresh) (a : Arrival) :
    (s.opening st m a).Obeys (fun h t c => c.Greets a h ∧ (t.phase = .connected → Greeted h))
      (fun h y => (y.1.phase = .connected → Greeted h) ∧
        ((∀ outcome, y.2 ≠ .leave outcome) → ∃ client, Identified h client ∧
          y.1.connected? = some client ∧ y.1.protocol = s.protocol)) [] := by
  have hfresh : s.phase ≠ .connected := by simp [hs]
  cases a with
  | frame bytes =>
    cases hb : Packet.ofFrame? bytes with
    | none =>
      simp only [opening, hb]
      exact refuse_greets hfresh _ _ _
    | some p =>
      cases p with
      | connect secret =>
        rw [opening_connect hs hb]
        split
        · exact refuse_greets (by simp) _ _ _
        · refine ⟨⟨⟨by simp, ?_, .inl ⟨secret, rfl⟩⟩, by simp [hs]⟩, fun r => ?_⟩
          · intro secret' he
            cases he
            exact ⟨rfl, bytes, rfl, hb⟩
          · cases r with
            | error e => exact refuse_greets (by simp) _ _ _
            | ok client =>
              have hgreeted : ∀ {d : Dealings},
                  Identified (⟨.identify secret, .ok client⟩ :: d) client :=
                ⟨secret, List.mem_cons_self⟩
              refine ⟨⟨⟨by simp, by simp, .inr (.inr ⟨client, hgreeted⟩)⟩,
                fun _ => ⟨client, hgreeted⟩⟩, fun r => ?_⟩
              refine ⟨⟨⟨by simp, by simp, .inr (.inl ⟨_, rfl⟩)⟩, fun _ => ⟨client, hgreeted⟩⟩,
                fun r => ?_⟩
              cases r with
              | ok u => exact ⟨fun _ => ⟨client, hgreeted⟩, fun _ => ⟨client, hgreeted, rfl, rfl⟩⟩
              | error e => exact ⟨fun _ => ⟨client, hgreeted⟩, fun hn => absurd rfl (hn _)⟩
      | _ =>
        simp only [opening, hb]
        exact refuse_greets hfresh _ _ _
  | _ => exact ⟨fun hc => absurd hc hfresh, fun hn => absurd rfl (hn _)⟩

end Session

def Round.Greets (r : Round) : Prop :=
  ∀ secret reply, (⟨.identify secret, reply⟩ : Σ c : Call, c.Reply) ∈ r.dealings →
    [(⟨.identify secret, reply⟩ : Σ c : Call, c.Reply)] <+: r.dealings ∧
      ∃ bytes, r.arrival = .frame bytes ∧ Packet.ofFrame? bytes = some (.connect secret)

/-- In the first round a secret was accepted for `client`, and the publishes among the calls `cs`
are those granted to that client. -/
structure Attended (st : Settings) (protocol : Protocol) (client : ClientId) (rs : List Round)
    (cs : List Call) : Prop where
  first : ∃ first rest, rs = first :: rest ∧ first.Greets ∧ Identified first.dealings client ∧
    ∀ r ∈ rest, ∀ secret, .identify secret ∉ r.calls
  matched : Matched st client protocol rs cs

theorem Round.Greets.eq_of_identified {r : Round} (hr : r.Greets) {secret : String}
    {client client' : ClientId}
    (hmem : (⟨.identify secret, .ok client⟩ : Σ c : Call, c.Reply) ∈ r.dealings)
    (hi : Identified r.dealings client') : client' = client := by
  obtain ⟨secret', hmem'⟩ := hi
  obtain ⟨rest, hrest⟩ := (hr secret _ hmem).1
  obtain ⟨rest', hrest'⟩ := (hr secret' _ hmem').1
  have hheads := hrest'.trans hrest.symm
  simp only [List.cons_append, List.nil_append, List.cons.injEq] at hheads
  cases hheads.1
  rfl

/-- No secret was accepted yet, and nothing but the authenticator and the connection was called. -/
structure Unmet (rs : List Round) (cs : List Call) (v : Serving) : Prop where
  ungreeted : ∀ r ∈ rs, ¬ Greeted r.dealings
  calls : ∀ c ∈ cs, (∃ secret, c = .identify secret) ∨ ∃ p, c = .send p
  session : ∀ x, v.guarded? = some x → x.phase ≠ .connected

section
variable {st : Settings} {queue : QueueId} {name : String} {protocol : Protocol}
variable {client : ClientId} {rs : List Round} {cs cs' : List Call} {r : Round} {v : Serving}

theorem Unmet.not_parts (h : Unmet rs cs v) (c : Call) : ¬ v.Parts c := by
  rintro ⟨x, t, hx, hfarewell⟩
  have hs := h.session x hx
  cases hfarewell with
  | deregisterOwner hconnected => exact hs hconnected
  | record hconnected => exact hs (Session.connected?_eq_some_iff.1 hconnected).1

theorem published_of_parts (hcs : ∀ c ∈ cs, v.Parts c) : published cs = [] := by
  refine published_eq_nil fun c hc => ?_
  obtain ⟨x, t, -, hfarewell⟩ := hcs c hc
  cases hfarewell <;> exact ⟨by simp, by simp⟩

theorem Serving.pending_call (t : Session) (c : Call)
    (k : c.Reply → Work Session (Session × Next)) :
    (working (.call t c k)).pending true = [c] := rfl

theorem Attended.append (h : Attended st protocol client rs cs)
    (hr : Keeps st client protocol r (r.calls ++ cs')) :
    Attended st protocol client (rs ++ [r]) (cs ++ (r.calls ++ cs')) where
  first := by
    obtain ⟨first, rest, rfl, hgreets, hidentified, hrest⟩ := h.first
    refine ⟨first, rest ++ [r], rfl, hgreets, hidentified, List.forall_mem_append.2 ⟨hrest, ?_⟩⟩
    rw [List.forall_mem_singleton]
    exact fun secret hmem => hr.known secret (List.mem_append_left _ hmem)
  matched := h.matched.append hr.matched

theorem forall_calls_of_reaches {P : Dealings → Session → Call → Prop}
    {Q : Dealings → Session × Next → Prop} {p : Call → Prop} {w w' : Work Session (Session × Next)}
    {d : Dealings} (hw : w.Obeys P Q []) (hr : w.Reaches d w')
    (hp : ∀ before t c, before <+: d → P before t c → p c) :
    ∀ c ∈ d.calls ++ (Serving.working w').pending true, p c := by
  refine List.forall_mem_append.2 ⟨fun c hc => ?_, fun c hc => ?_⟩
  · obtain ⟨e, he, rfl⟩ := List.mem_map.1 hc
    obtain ⟨before, t, hbefore, hP⟩ := hw.of_mem hr he
    exact hp before t e.1 ((List.prefix_append _ _).trans hbefore) hP
  · cases w' with
    | done y => cases hc
    | call t c' k =>
      rw [Serving.pending_call, List.mem_singleton] at hc
      exact hc ▸ hp d t c' (List.prefix_refl d) (hw.call hr)

section
variable {m : Moment} {ms : Moments} {a : Arrival} {d : Dealings}
variable {w : Work Session (Session × Next)}

theorem greets_of_reaches {s : Session} (hs : s.phase = .fresh)
    (hr : (s.opening st m a).Reaches d w) : (⟨a, d⟩ : Round).Greets := by
  intro secret reply hmem
  obtain ⟨before, t, hbefore, ⟨hgreets, -⟩⟩ := (Session.opening_greets st m hs a).of_mem hr hmem
  obtain ⟨hnone, bytes, hframe, hb⟩ := hgreets.identify secret rfl
  have hempty : before = [] := by simpa using hnone
  rw [hempty] at hbefore
  exact ⟨hbefore, bytes, hframe, hb⟩

theorem attended_of_opening (hr : ((Session.start name protocol).opening st m a).Reaches d w)
    (hi : Identified d client) :
    Attended st protocol client [⟨a, d⟩] (d.calls ++ (Serving.working w).pending true) where
  first := ⟨_, [], rfl, greets_of_reaches rfl hr, hi, by simp⟩
  matched := by
    have hobeys := Session.opening_greets (s := .start name protocol) st m rfl a
    have hnone : published (d.calls ++ (Serving.working w).pending true) = [] := by
      refine List.filterMap_eq_nil_iff.2 fun c hc => ?_
      have hpublish := forall_calls_of_reaches (p := fun c => ∀ subject message,
        c ≠ .publish subject message) hobeys hr (fun _ _ _ _ hP => hP.1.publish) c hc
      cases c with
      | publish subject message => exact absurd rfl (hpublish subject message)
      | _ => rfl
    obtain ⟨secret, hmem⟩ := hi
    obtain ⟨-, bytes, hframe, hb⟩ := greets_of_reaches rfl hr secret _ hmem
    have hframe : a = .frame bytes := hframe
    rw [Matched, hnone]
    simp [Round.granted?, hframe, hb]

theorem unmet_of_opening (hr : ((Session.start name protocol).opening st m a).Reaches d w)
    (hd : ¬ Greeted d) :
    Unmet [⟨a, d⟩] (d.calls ++ (Serving.working w).pending true) (.working w) where
  ungreeted := by simpa using hd
  calls := by
    have hobeys := Session.opening_greets (s := .start name protocol) st m rfl a
    refine forall_calls_of_reaches hobeys hr fun before t c hbefore hP => ?_
    rcases hP.1.stranger with h | h | ⟨client, secret, hmem⟩
    · exact .inl h
    · exact .inr h
    · exact absurd ⟨client, secret, hbefore.subset hmem⟩ hd
  session := by
    have hobeys := Session.opening_greets (s := .start name protocol) st m rfl a
    intro x hx hconnected
    cases w with
    | done y =>
      cases hx
      exact hd ((hobeys.result hr).1 hconnected)
    | call t c k =>
      cases hx
      exact hd ((hobeys.call hr).2 hconnected)

theorem keeps_of_reading {x : Session} (hs : x.connected? = some client)
    (hr : (x.reading st ms queue a).Reaches d w) :
    Keeps st client x.protocol ⟨a, d⟩ (d.calls ++ (Serving.working w).pending true) := by
  have hobeys := Session.reading_keeps st ms queue hs a
  cases w with
  | done y => simpa [Serving.pending, Serving.call?] using (hobeys.result hr).2
  | call t c k => exact hobeys.call hr

end

theorem Handled.attended (h : Handled st queue (.opening (.start name protocol)) rs v) :
    (rs = [] ∧ v = .opening (.start name protocol)) ∨
      ∃ x client, v = .reading x ∧ x.connected? = some client ∧ x.protocol = protocol ∧
        Attended st protocol client rs (rs.flatMap Round.calls) := by
  induction h with
  | start => exact .inl ⟨rfl, rfl⟩
  | @round rs v h hv m a w ha d y next hr hn ih =>
    right
    rcases ih with ⟨rfl, rfl⟩ | ⟨x, client, rfl, hs, hprotocol, hattended⟩
    · cases ha
      have hobeys := Session.opening_greets (s := .start name protocol) st (m 0) rfl a
      obtain ⟨client, hi, hs, hprotocol⟩ := (hobeys.result hr).2 hn
      refine ⟨y, client, rfl, hs, hprotocol, ?_⟩
      simpa [Serving.pending, Serving.call?, Round.calls] using attended_of_opening hr hi
    · cases ha
      obtain rfl := ((Session.reading_keeps st m queue hs a).result hr).1
      refine ⟨y, client, rfl, hs, hprotocol, ?_⟩
      have hkeeps := keeps_of_reading hs hr
      rw [hprotocol] at hkeeps
      simpa [Serving.pending, Serving.call?] using hattended.append hkeeps

theorem Served.attended (h : Served st queue (.opening (.start name protocol)) rs v) :
    Unmet rs (rs.flatMap Round.calls ++ v.pending true) v ∨
      ∃ client, Attended st protocol client rs (rs.flatMap Round.calls ++ v.pending true) := by
  cases h with
  | between h hv =>
    have hpending : v.pending true = [] := by simp [Serving.pending, Serving.call?_of_waits hv]
    rw [hpending, List.append_nil]
    rcases h.attended with ⟨rfl, rfl⟩ | ⟨x, client, -, -, -, hattended⟩
    · refine .inl ⟨by simp, by simp, fun x hx => ?_⟩
      cases hx
      simp [Session.start]
    · exact .inr ⟨client, hattended⟩
  | @within rs v h hv m a w ha d w' hr =>
    have hcalls : (rs ++ [(⟨a, d⟩ : Round)]).flatMap Round.calls ++
          (Serving.working w').pending true =
        rs.flatMap Round.calls ++ (d.calls ++ (Serving.working w').pending true) := by
      simp [Round.calls]
    rw [hcalls]
    rcases h.attended with ⟨rfl, rfl⟩ | ⟨x, client, rfl, hs, hprotocol, hattended⟩
    · cases ha
      by_cases hd : Greeted d
      · obtain ⟨client, hi⟩ := hd
        exact .inr ⟨client, attended_of_opening hr hi⟩
      · exact .inl (unmet_of_opening hr hd)
    · cases ha
      have hkeeps := keeps_of_reading hs hr
      rw [hprotocol] at hkeeps
      exact .inr ⟨client, hattended.append hkeeps⟩

theorem Served.unconnected_of_identify {x : Session} {secret : String}
    {k : Except AccessError ClientId → Work Session (Session × Next)}
    (h : Served st queue (.opening (.start name protocol)) rs
      (.working (.call x (.identify secret) k))) : x.phase ≠ .connected := by
  cases h with
  | between _ hv => cases hv
  | @within rs v h hv m a w ha d w' hr =>
    rcases h.attended with ⟨-, rfl⟩ | ⟨y, client, rfl, hs, -⟩
    · cases ha
      have hobeys := Session.opening_greets (s := .start name protocol) st (m 0) rfl a
      obtain ⟨hgreets, hconnected⟩ := hobeys.call hr
      have hnone : d = [] := by simpa using (hgreets.identify secret rfl).1
      intro hx
      obtain ⟨client, secret', hmem⟩ := hconnected hx
      simp [hnone] at hmem
    · cases ha
      refine absurd ?_ ((keeps_of_reading hs hr).known secret)
      exact List.mem_append_right _ (List.mem_singleton_self _)

end

namespace Line
variable {st : Settings} {queue : QueueId} {name : String} {protocol : Protocol} {acts : List Act}
variable {l : Line} {s : Services}

theorem Run.unconnected_of_identify
    (hr : Run st queue { serving := .opening (.start name protocol) } acts l) {secret : String}
    {f : Except AccessError ClientId → Serving}
    (hc : l.serving.call? = some ⟨.identify secret, f⟩) {x : Session}
    (hg : l.serving.guarded? = some x) : x.phase ≠ .connected := by
  cases hr.situation with
  | waiting _ hw =>
    rw [Serving.call?_of_waits hw] at hc
    cases hc
  | @working o w _ hw hp =>
    rw [hw] at hc hg
    obtain ⟨y, k, rfl, -⟩ := Serving.eq_call_of_working hc
    cases hg
    exact hp.unconnected_of_identify
  | leaving _ _ _ hw =>
    rw [hw] at hg
    cases hg

def greeting (bytes : Bytes) (secret : String) (client : ClientId) (e : Event) : List Act :=
  [.arrive (.frame bytes)] ++ answered (.identify secret) (.ok client) ++
    answered (.record e) (.ok ()) ++ answered (.send .connAck) (.ok ()) ++ [.settle]

theorem path_greeting (queue : QueueId) (s : Services) (name : String) (protocol : Protocol)
    {bytes : Bytes} {secret : String} (hb : Packet.ofFrame? bytes = some (.connect secret))
    (hne : secret ≠ "")
    (client : ClientId) (m : Moment) :
    Path queue s { serving := .opening (.start name protocol) }
      (greeting bytes secret client
        (.ofSession .connect client protocol s.settings.instanceName m)) s
      { serving := .reading (connectedAs name protocol secret client m), writer := .idle } := by
  have hstart : Path queue s { serving := .opening (.start name protocol) } [] s
      { serving := .opening (.start name protocol) } := .start
  have harrived := hstart.step
    (.arrive (l := { serving := .opening (.start name protocol) }) (fun _ => m) (.frame bytes) rfl
      rfl)
  have hfresh : (Session.start name protocol).phase = .fresh := rfl
  simp only [Serving.arrive, Session.opening_connect hfresh hb, if_neg hne] at harrived
  have hidentified := harrived.call rfl rfl rfl
    (s.answers_unchanged (c := .identify secret) rfl (.ok client))
  have hrecorded := hidentified.call rfl rfl rfl
    (s.answers_unchanged (c := .record _) rfl (.ok ()))
  have hsent := hrecorded.call rfl rfl rfl (s.answers_unchanged (c := .send _) rfl (.ok ()))
  have hsettled := hsent.step (.settle m rfl rfl)
  exact hsettled

/-- Whatever arrives, is replied and happens to a line: until a secret is accepted it calls nothing
but the authenticator and the connection. Once one is, it is the secret of the first frame, and the
publishes that the line has made, or makes before it can be cut off, are those that were granted in
its rounds. -/
theorem publishes_match_packets
    (hr : Run st queue { serving := .opening (.start name protocol) } acts l) :
    ((∀ secret client, (⟨.identify secret, .ok client⟩ : Σ c : Call, c.Reply) ∉ heard acts) →
      ∀ c ∈ made acts, (∃ secret, c = .identify secret) ∨ ∃ p, c = .send p) ∧
    (∀ secret client, (⟨.identify secret, .ok client⟩ : Σ c : Call, c.Reply) ∈ heard acts →
      (∃ bytes dealings rest, rounds acts = ⟨.frame bytes, dealings⟩ :: rest ∧
        Packet.ofFrame? bytes = some (.connect secret)) ∧
      List.Forall₂ (Carries st client protocol) ((rounds acts).filterMap (Round.granted? client))
        (published (made acts ++ l.upcoming))) ∧
    (l.Suspended ∨ l.standing.isOver = true → l.upcoming = []) := by
  obtain ⟨left, last, parting, hserved, hheard, hlast, hmade, hparting⟩ := hr.account
  rcases hserved.attended with hunmet | ⟨client', hattended⟩
  · refine ⟨fun _ c hc => ?_, fun secret client hmem => ?_, upcoming_eq_nil⟩
    · have hmem : c ∈ made acts ++ l.upcoming := List.mem_append_left _ hc
      rw [hmade] at hmem
      rcases List.mem_append.1 hmem with hmem | hmem
      · exact hunmet.calls c hmem
      · exact absurd (hparting c hmem) (hunmet.not_parts c)
    · rw [hheard] at hmem
      rcases List.mem_append.1 hmem with hmem | hmem
      · obtain ⟨r, hrounds, hmem⟩ := List.mem_flatMap.1 hmem
        exact absurd ⟨client, secret, hmem⟩ (hunmet.ungreeted r hrounds)
      · exact absurd (hlast _ hmem) (hunmet.not_parts _)
  · obtain ⟨first, rest, hrounds, hgreets, hi, hrest⟩ := hattended.first
    refine ⟨fun hnone => ?_, fun secret client hmem => ?_, upcoming_eq_nil⟩
    · obtain ⟨secret, hmem⟩ := hi
      refine absurd ?_ (hnone secret client')
      rw [hheard, hrounds]
      exact List.mem_append_left _ (List.mem_append_left _ hmem)
    · rw [hheard, hrounds] at hmem
      rcases List.mem_append.1 hmem with hmem | hmem
      · obtain ⟨r, hr, hin⟩ := List.mem_flatMap.1 hmem
        rcases List.mem_cons.1 hr with rfl | hr
        · obtain rfl := hgreets.eq_of_identified hin hi
          obtain ⟨-, bytes, hframe, hb⟩ := hgreets secret _ hin
          refine ⟨⟨bytes, r.dealings, rest, by rw [hrounds, ← hframe], hb⟩, ?_⟩
          rw [hmade, published_append, published_of_parts hparting, List.append_nil]
          exact hattended.matched
        · exact absurd (List.mem_map_of_mem hin) (hrest r hr secret)
      · obtain ⟨x, t, -, hfarewell⟩ := hlast _ hmem
        cases hfarewell

theorem publishes_match_packets_of_one : ∃ (acts : List Act) (l : Line),
    Run {} 0 { serving := .opening (.start "1" .ws) } acts l ∧
    (⟨.identify "key", .ok ⟨"a"⟩⟩ : Σ c : Call, c.Reply) ∈ heard acts ∧
    (rounds acts).filterMap (Round.granted? ⟨"a"⟩) = [(⟨⟨"c", by decide⟩, ""⟩, [1])] ∧
    List.Forall₂ (Carries {} ⟨"a"⟩ .ws) ((rounds acts).filterMap (Round.granted? ⟨"a"⟩))
      (published (made acts ++ l.upcoming)) := by
  let s : Services := { registrar := { store := ⟨[]⟩ }, policy := ⟨[]⟩ }
  have hconnect := Packet.ofFrame?_frame (.connect "key")
  have hpublish := Packet.ofFrame?_frame (.publish "channels/c/messages" [1])
  have hparse : Topic.parse "channels/c/messages" = .ok ⟨⟨"c", by decide⟩, ""⟩ := by decide
  have hconnected : (connectedAs "1" .ws "key" ⟨"a"⟩ ⟨0, 0⟩).connected? = some ⟨"a"⟩ := rfl
  have hgreeted := path_greeting 0 s "1" .ws hconnect (by decide) ⟨"a"⟩ ⟨0, 0⟩
  have harrived := hgreeted.step
    (.arrive (fun _ => ⟨0, 0⟩) (.frame (Packet.publish "channels/c/messages" [1]).frame) rfl rfl)
  simp only [Serving.arrive, Session.reading, hpublish, Session.packet_publish hconnected, hparse]
    at harrived
  have hallowed := harrived.call rfl rfl rfl
    (s.answers_unchanged (c := .authorize _ _ _) rfl (.ok ()))
  have hpublished := hallowed.call rfl rfl rfl
    (s.answers_unchanged (c := .publish _ _) rfl (.ok ()))
  obtain ⟨-, hrun⟩ := Run.start.path rfl hpublished
  refine ⟨_, _, hrun, ?_, ?_, ((publishes_match_packets hrun).2.1 "key" _ ?_).2⟩
  · exact List.mem_cons_self
  · change List.filterMap (Round.granted? ⟨"a"⟩) [⟨.frame (Packet.connect "key").frame, _⟩,
      ⟨.frame (Packet.publish "channels/c/messages" [1]).frame, _⟩] = _
    simp [Round.granted?, hconnect, hpublish, hparse, Allowed]
  · exact List.mem_cons_self

end Line

end DeviceGateway
