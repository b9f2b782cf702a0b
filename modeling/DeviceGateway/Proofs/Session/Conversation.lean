import DeviceGateway.Proofs.Session.Rounds

/-!
# A conversation with a device

`Exchange` lists all that a device can say, and what the gateway then sends, given what the
authenticator, the policy and the bus replied. A conversation is made of exchanges, one for each
round and in their order, and none comes after one that ends it. What was said and replied leaves no
choice of what is sent.
-/

namespace DeviceGateway

def Call.packet? : Call → Option Packet
  | .send p => some p
  | _ => none

def sentBy (cs : List Call) : List Packet := cs.filterMap Call.packet?

def sent (acts : List Act) : List Packet := sentBy (made acts)

theorem sentBy_append (cs ds : List Call) : sentBy (cs ++ ds) = sentBy cs ++ sentBy ds :=
  List.filterMap_append

/-- What a device says, as the gateway reads it. -/
inductive Said
  | packet (p : Packet)
  | garbled
  | closed
  | failed (e : LinkError)

def Arrival.said? : Arrival → Option Said
  | .frame bytes =>
    match Packet.ofFrame? bytes with
    | some p => some (.packet p)
    | none => some .garbled
  | .closed => some .closed
  | .failed e => some (.failed e)
  | .silence | .stop => none

def Packet.isForDevices : Packet → Bool
  | connect _ | publish _ _ | subscribe _ | unsubscribe _ | ping | disconnect => false
  | connAck | subAck _ | unsubAck _ | pong | deliver _ _ | error _ _ => true

inductive Packet.Asks :
    Packet → (String → Except TopicError Channel) → Action → List String → Prop
  | publish (topic : String) (payload : Bytes) :
      Asks (.publish topic payload) Topic.parse .publish [topic]
  | subscribe (topics : List String) :
      Asks (.subscribe topics) Topic.parseFilter .subscribe topics
  | unsubscribe (topics : List String) :
      Asks (.unsubscribe topics) Topic.parseFilter .unsubscribe topics

/-- Leave for `client` to act on all of the topics, as it comes out when these are the questions to
the policy and its replies. The first topic that cannot be read, or is denied, ends it. -/
inductive Judged (read : String → Except TopicError Channel) (client : ClientId) (action : Action) :
    List String → Dealings → Except GatewayError (List Channel) → Prop
  | none : Judged read client action [] [] (.ok [])
  | unreadable {topic : String} {rest : List String} {e : TopicError} (h : read topic = .error e) :
      Judged read client action (topic :: rest) [] (.error (.authorization (.topic e)))
  | denied {topic : String} {rest : List String} {c : Channel} {e : AccessError}
      (h : read topic = .ok c) :
      Judged read client action (topic :: rest) [⟨.authorize client c.id action, .error e⟩]
        (.error (.authorization (.access e)))
  | allowed {topic : String} {rest : List String} {c : Channel} {d : Dealings}
      {v : Except GatewayError (List Channel)} (h : read topic = .ok c)
      (hv : Judged read client action rest d v) :
      Judged read client action (topic :: rest) (⟨.authorize client c.id action, .ok ()⟩ :: d)
        (v.map (c :: ·))

inductive Packet.Answered (client : ClientId) : Packet → Dealings → List Packet → Prop
  | forbidden {p : Packet} {read : String → Except TopicError Channel} {action : Action}
      {topics : List String} (hp : p.Asks read action topics) {asked : Dealings} {e : GatewayError}
      (hj : Judged read client action topics asked (.error e)) {d : Dealings} (hd : asked <+: d) :
      Answered client p d [.error 403 e.message]
  | published {topic : String} {asked : Dealings} {cs : List Channel}
      (hj : Judged Topic.parse client .publish [topic] asked (.ok cs)) {subject : String}
      {message : Message} {d : Dealings}
      (hd : asked ++ [(⟨.publish subject message, .ok ()⟩ : Σ c : Call, c.Reply)] <+: d)
      (payload : Bytes) : Answered client (.publish topic payload) d []
  | unpublished {topic : String} {asked : Dealings} {cs : List Channel}
      (hj : Judged Topic.parse client .publish [topic] asked (.ok cs)) {subject : String}
      {message : Message} {e : BusError} {d : Dealings}
      (hd : asked ++ [(⟨.publish subject message, .error e⟩ : Σ c : Call, c.Reply)] <+: d)
      (payload : Bytes) :
      Answered client (.publish topic payload) d [.error 503 (GatewayError.forwarding e).message]
  | subscribed {topics : List String} {asked : Dealings} {cs : List Channel}
      (hj : Judged Topic.parseFilter client .subscribe topics asked (.ok cs)) {d : Dealings}
      (hd : asked <+: d) :
      Answered client (.subscribe topics) d [.subAck (cs.map Topic.edgeFilter)]
  | unsubscribed {topics : List String} {asked : Dealings} {cs : List Channel}
      (hj : Judged Topic.parseFilter client .unsubscribe topics asked (.ok cs)) {d : Dealings}
      (hd : asked <+: d) :
      Answered client (.unsubscribe topics) d [.unsubAck (cs.map Topic.edgeFilter)]

/-- How far a device and the gateway have come. -/
inductive Footing
  | awaiting
  | talking (client : ClientId)
  | ended

/-- What the gateway sends when a device has said something and `d` was asked and replied, and how
far they have come then. -/
inductive Exchange : Footing → Said → Dealings → List Packet → Footing → Prop
  | garbled {f : Footing} (hf : f ≠ .ended) (d : Dealings) :
      Exchange f .garbled d [.error 400 "malformed packet"] .ended
  | closed {f : Footing} (hf : f ≠ .ended) (d : Dealings) : Exchange f .closed d [] .ended
  | failed {f : Footing} (hf : f ≠ .ended) (e : LinkError) (d : Dealings) :
      Exchange f (.failed e) d [] .ended
  | uninvited {p : Packet} (hp : ∀ secret, p ≠ .connect secret) (d : Dealings) :
      Exchange .awaiting (.packet p) d [.error 400 "expected Connect"] .ended
  | refused {secret : String} {d : Dealings}
      (hd : secret = "" ∨ ∃ e, [(⟨.identify secret, .error e⟩ : Σ c : Call, c.Reply)] <+: d) :
      Exchange .awaiting (.packet (.connect secret)) d [.error 401 "unauthorized"] .ended
  | accepted {secret : String} {client : ClientId} {d : Dealings} (hne : secret ≠ "")
      (hd : [(⟨.identify secret, .ok client⟩ : Σ c : Call, c.Reply)] <+: d) :
      Exchange .awaiting (.packet (.connect secret)) d [.connAck] (.talking client)
  | repeated (client : ClientId) (secret : String) (d : Dealings) :
      Exchange (.talking client) (.packet (.connect secret)) d [.error 400 "already connected"]
        .ended
  | left (client : ClientId) (d : Dealings) :
      Exchange (.talking client) (.packet .disconnect) d [] .ended
  | pinged (client : ClientId) (d : Dealings) :
      Exchange (.talking client) (.packet .ping) d [.pong] (.talking client)
  | misdirected (client : ClientId) {p : Packet} (hp : p.isForDevices = true) (d : Dealings) :
      Exchange (.talking client) (.packet p) d [.error 400 "unexpected packet"] (.talking client)
  | answered {client : ClientId} {p : Packet} {d : Dealings} {ps : List Packet}
      (h : p.Answered client d ps) : Exchange (.talking client) (.packet p) d ps (.talking client)

/-- The exchanges of the rounds, the packets that were sent in them, and how far they lead. -/
inductive Conversation : List Round → List Packet → Footing → Prop
  | start : Conversation [] [] .awaiting
  | exchange {rs : List Round} {ps qs : List Packet} {f f' : Footing} (h : Conversation rs ps f)
      {r : Round} {i : Said} (hi : r.arrival.said? = some i)
      (he : Exchange f i r.dealings qs f') : Conversation (rs ++ [r]) (ps ++ qs) f'

theorem heads_eq {α : Type} {a b : α} {l l' whole : List α} (h : a :: l <+: whole)
    (h' : b :: l' <+: whole) : a = b ∧ ∃ rest, l <+: rest ∧ l' <+: rest := by
  obtain ⟨more, rfl⟩ := h
  obtain ⟨heq, hrest⟩ := List.cons_prefix_cons.1 h'
  exact ⟨heq.symm, _, List.prefix_append l more, hrest⟩

namespace Judged
variable {read : String → Except TopicError Channel} {client : ClientId} {action : Action}
variable {topics : List String} {d d' whole : Dealings} {v v' : Except GatewayError (List Channel)}

theorem unique (h : Judged read client action topics d v)
    (h' : Judged read client action topics d' v') (hd : d <+: whole) (hd' : d' <+: whole) :
    d = d' ∧ v = v' := by
  induction h generalizing d' v' whole with
  | none =>
    cases h'
    exact ⟨rfl, rfl⟩
  | unreadable hread =>
    cases h' with
    | unreadable hread' =>
      cases hread.symm.trans hread'
      exact ⟨rfl, rfl⟩
    | denied hread' | allowed hread' => cases hread.symm.trans hread'
  | denied hread =>
    cases h' with
    | unreadable hread' => cases hread.symm.trans hread'
    | denied hread' =>
      cases hread.symm.trans hread'
      cases (heads_eq hd hd').1
      exact ⟨rfl, rfl⟩
    | allowed hread' =>
      cases hread.symm.trans hread'
      cases (heads_eq hd hd').1
  | allowed hread hv ih =>
    cases h' with
    | unreadable hread' => cases hread.symm.trans hread'
    | denied hread' =>
      cases hread.symm.trans hread'
      cases (heads_eq hd hd').1
    | allowed hread' hv' =>
      cases hread.symm.trans hread'
      obtain ⟨-, rest, hrest, hrest'⟩ := heads_eq hd hd'
      obtain ⟨rfl, rfl⟩ := ih hv' hrest hrest'
      exact ⟨rfl, rfl⟩

theorem errorPacket_eq {e : GatewayError} (h : Judged read client action topics d (.error e)) :
    Session.errorPacket e = .error 403 e.message := by
  generalize hv : Except.error e = v at h
  induction h with
  | none => cases hv
  | unreadable | denied =>
    cases hv
    rfl
  | @allowed _ _ _ _ v _ _ ih =>
    cases v with
    | ok cs => cases hv
    | error e' => exact ih hv

end Judged

theorem Packet.Asks.unique {p : Packet} {read read' : String → Except TopicError Channel}
    {action action' : Action} {topics topics' : List String} (h : p.Asks read action topics)
    (h' : p.Asks read' action' topics') : read = read' ∧ action = action' ∧ topics = topics' := by
  cases h <;> cases h' <;> exact ⟨rfl, rfl, rfl⟩

namespace Packet.Answered
variable {client : ClientId} {p : Packet} {d d' : Dealings} {ps qs : List Packet}

theorem asks (h : p.Answered client d ps) : ∃ read action topics, p.Asks read action topics := by
  cases h with
  | forbidden hp => exact ⟨_, _, _, hp⟩
  | published | unpublished => exact ⟨_, _, _, .publish _ _⟩
  | subscribed => exact ⟨_, _, _, .subscribe _⟩
  | unsubscribed => exact ⟨_, _, _, .unsubscribe _⟩

theorem mono (h : p.Answered client d ps) (hd : d <+: d') : p.Answered client d' ps := by
  cases h with
  | forbidden hp hj h => exact .forbidden hp hj (h.trans hd)
  | published hj h payload => exact .published hj (h.trans hd) payload
  | unpublished hj h payload => exact .unpublished hj (h.trans hd) payload
  | subscribed hj h => exact .subscribed hj (h.trans hd)
  | unsubscribed hj h => exact .unsubscribed hj (h.trans hd)

theorem eq_of_forbidden {read : String → Except TopicError Channel} {action : Action}
    {topics : List String} (hp : p.Asks read action topics) {asked : Dealings} {e : GatewayError}
    (hj : Judged read client action topics asked (.error e)) (hd : asked <+: d)
    (h : p.Answered client d ps) : ps = [.error 403 e.message] := by
  cases h with
  | forbidden hp' hj' hd' =>
    obtain ⟨rfl, rfl, rfl⟩ := hp.unique hp'
    cases (hj.unique hj' hd hd').2
    rfl
  | published hj' hd' | unpublished hj' hd' =>
    cases hp
    cases (hj.unique hj' hd ((List.prefix_append _ _).trans hd')).2
  | subscribed hj' hd' | unsubscribed hj' hd' =>
    cases hp
    cases (hj.unique hj' hd hd').2

theorem eq_of_handed {topic : String} {payload : Bytes} {asked : Dealings} {cs : List Channel}
    (hj : Judged Topic.parse client .publish [topic] asked (.ok cs)) {subject : String}
    {message : Message} {reply : Except BusError Unit}
    (hd : asked ++ [(⟨.publish subject message, reply⟩ : Σ c : Call, c.Reply)] <+: d)
    (h : (Packet.publish topic payload).Answered client d ps) : ps =
      match reply with
      | .ok () => []
      | .error e => [.error 503 (GatewayError.forwarding e).message] := by
  have hasked : asked <+: d := (List.prefix_append _ _).trans hd
  cases h with
  | forbidden hp' hj' hd' =>
    cases hp'
    cases (hj.unique hj' hasked hd').2
  | published hj' hd' | unpublished hj' hd' =>
    obtain ⟨rfl, -⟩ := hj.unique hj' hasked ((List.prefix_append _ _).trans hd')
    obtain ⟨more, rfl⟩ := hd
    rw [List.append_assoc, List.prefix_append_right_inj] at hd'
    cases (heads_eq hd' (List.prefix_append _ more)).1
    rfl

theorem unique (h : p.Answered client d ps) (h' : p.Answered client d qs) : ps = qs := by
  cases h with
  | forbidden hp hj hd => exact (eq_of_forbidden hp hj hd h').symm
  | published hj hd | unpublished hj hd => exact (eq_of_handed hj hd h').symm
  | subscribed hj hd =>
    cases h' with
    | forbidden hp' hj' hd' => exact eq_of_forbidden hp' hj' hd' (.subscribed hj hd)
    | subscribed hj' hd' =>
      cases (hj.unique hj' hd hd').2
      rfl
  | unsubscribed hj hd =>
    cases h' with
    | forbidden hp' hj' hd' => exact eq_of_forbidden hp' hj' hd' (.unsubscribed hj hd)
    | unsubscribed hj' hd' =>
      cases (hj.unique hj' hd hd').2
      rfl

end Packet.Answered

namespace Exchange
variable {f f' f'' : Footing} {i : Said} {d d' : Dealings} {ps qs : List Packet}

theorem mono (h : Exchange f i d ps f') (hd : d <+: d') : Exchange f i d' ps f' := by
  cases h with
  | garbled hf => exact .garbled hf _
  | closed hf => exact .closed hf _
  | failed hf e => exact .failed hf e _
  | uninvited hp => exact .uninvited hp _
  | refused h => exact .refused (h.imp_right fun ⟨e, he⟩ => ⟨e, he.trans hd⟩)
  | accepted hne h => exact .accepted hne (h.trans hd)
  | repeated client secret => exact .repeated client secret _
  | left client => exact .left client _
  | pinged client => exact .pinged client _
  | misdirected client hp => exact .misdirected client hp _
  | answered h => exact .answered (h.mono hd)

theorem unique (h : Exchange f i d ps f') (h' : Exchange f i d qs f'') : ps = qs ∧ f' = f'' := by
  cases h with
  | garbled | closed | failed =>
    cases h'
    exact ⟨rfl, rfl⟩
  | uninvited hp =>
    cases h' with
    | uninvited => exact ⟨rfl, rfl⟩
    | refused | accepted => exact absurd rfl (hp _)
  | refused hd =>
    cases h' with
    | uninvited hp => exact absurd rfl (hp _)
    | refused => exact ⟨rfl, rfl⟩
    | accepted hne hd' =>
      obtain ⟨e, hd⟩ := hd.resolve_left hne
      cases (heads_eq hd hd').1
  | accepted hne hd =>
    cases h' with
    | uninvited hp => exact absurd rfl (hp _)
    | refused hd' =>
      obtain ⟨e, hd'⟩ := hd'.resolve_left hne
      cases (heads_eq hd hd').1
    | accepted _ hd' =>
      cases (heads_eq hd hd').1
      exact ⟨rfl, rfl⟩
  | repeated | left | pinged =>
    cases h' with
    | misdirected _ hp => cases hp
    | answered h' =>
      obtain ⟨_, _, _, hp⟩ := h'.asks
      cases hp
    | _ => exact ⟨rfl, rfl⟩
  | misdirected _ hp =>
    cases h' with
    | misdirected => exact ⟨rfl, rfl⟩
    | answered h' =>
      obtain ⟨_, _, _, hasks⟩ := h'.asks
      cases hasks <;> cases hp
    | _ => cases hp
  | answered h =>
    obtain ⟨_, _, _, hasks⟩ := h.asks
    cases h' with
    | answered h' => exact ⟨h.unique h', rfl⟩
    | misdirected _ hp => cases hasks <;> cases hp
    | _ => cases hasks

end Exchange

namespace Conversation
variable {rs : List Round} {ps qs : List Packet} {f f' : Footing}

theorem unique (h : Conversation rs ps f) (h' : Conversation rs qs f') : ps = qs ∧ f = f' := by
  induction h generalizing qs f' with
  | start =>
    generalize hrs : ([] : List Round) = rs at h'
    cases h' with
    | start => exact ⟨rfl, rfl⟩
    | exchange => simp at hrs
  | @exchange rs ps _ f f' _ r i hi he ih =>
    generalize hrs : rs ++ [r] = rs' at h'
    cases h' with
    | start => simp at hrs
    | exchange h' hi' he' =>
      obtain ⟨rfl, rfl⟩ := List.concat_inj.1 (by simpa using hrs)
      obtain ⟨rfl, rfl⟩ := ih h'
      cases hi.symm.trans hi'
      obtain ⟨rfl, rfl⟩ := he.unique he'
      exact ⟨rfl, rfl⟩

end Conversation

namespace Exchange
variable {f f' : Footing} {i : Said} {d : Dealings} {ps : List Packet}

theorem ne_awaiting (h : Exchange f i d ps f') : f' ≠ .awaiting := by
  cases h <;> simp

theorem connAck (h : Exchange f i d ps f') :
    f = .awaiting ∧ ps = [.connAck] ∨
      .connAck ∉ ps ∧ ∀ client, f' = .talking client → f = .talking client := by
  cases h with
  | accepted => exact .inl ⟨rfl, rfl⟩
  | answered h =>
    refine .inr ⟨?_, fun _ hf => hf⟩
    cases h <;> simp
  | pinged | misdirected => exact .inr ⟨by simp, fun _ hf => hf⟩
  | _ => exact .inr ⟨by simp, by simp⟩

end Exchange

theorem Conversation.connAck {rs : List Round} {ps : List Packet} {f : Footing}
    (h : Conversation rs ps f) : (f = .awaiting → ps = []) ∧ .connAck ∉ ps.tail ∧
      ∀ client, f = .talking client → ps.head? = some .connAck := by
  induction h with
  | start => exact ⟨fun _ => rfl, by simp, by simp⟩
  | @exchange rs ps qs f f' _ r i hi he ih =>
    obtain ⟨hawaiting, htail, hhead⟩ := ih
    refine ⟨fun hf => absurd hf he.ne_awaiting, ?_⟩
    rcases he.connAck with ⟨hf, rfl⟩ | ⟨hqs, hf⟩
    · rw [hawaiting hf]
      exact ⟨by simp, fun _ _ => rfl⟩
    · cases ps with
      | nil => exact ⟨fun hmem => hqs (List.mem_of_mem_tail hmem), fun client hf' => by
          cases hhead client (hf client hf')⟩
      | cons p ps =>
        refine ⟨?_, fun client hf' => hhead client (hf client hf')⟩
        simpa [hqs] using htail

end DeviceGateway
