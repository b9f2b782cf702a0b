import DeviceGateway.Proofs.Session.Conversation
import DeviceGateway.Proofs.Session.Publishing

/-!
# What a device is told

All work on an arrival sends at most one packet, as the last thing it does, and by then what was
replied decides what it is. So, as long as no send fails and nothing ends a line from outside, what
a line has sent is the conversation that its rounds make.
-/

namespace DeviceGateway
open Activity (obeys_bind obeys_andThen)

def Footing.Stands : Footing → Serving → Prop
  | .awaiting, .opening x => x.phase = .fresh
  | .talking client, .reading x => x.connected? = some client
  | .ended, .leaving _ _ => True
  | _, _ => False

def Footing.Follows (f : Footing) (y : Session × Next) : Prop :=
  ∀ st m, f.Stands (Serving.settle st m y.1 y.2).1

def Steady (d : Dealings) : Prop :=
  ∀ p e, (⟨.send p, .error e⟩ : Σ c : Call, c.Reply) ∉ d

structure Timely (f : Footing) (i : Said) (h : Dealings) (c : Call) : Prop where
  unsent : sentBy h.calls = []
  sends : ∀ p, c = .send p → ∃ f', Exchange f i h [p] f'

def Concludes (f : Footing) (i : Said) (h : Dealings) (y : Session × Next) : Prop :=
  Steady h → ∃ f', Exchange f i h (sentBy h.calls) f' ∧ f'.Follows y

namespace Session
variable {s x : Session} {st : Settings} {m : Moment} {ms : Moments} {queue : QueueId}
variable {h : Dealings}
variable {f f' : Footing} {i : Said} {client : ClientId} {next : Next}

theorem sendThen_concludes {p : Packet} (hh : sentBy h.calls = []) (he : Exchange f i h [p] f')
    (hf : f'.Follows (s, next)) :
    (s.sendThen p next).Obeys (fun h _ => Timely f i h) (Concludes f i) h := by
  refine ⟨⟨hh, fun p' hp => ?_⟩, fun r => ?_⟩
  · cases hp
    exact ⟨f', he⟩
  · cases r with
    | ok u =>
      have hsent : sentBy (Dealings.calls (h ++ [⟨.send p, .ok u⟩])) = [p] := by
        rw [Dealings.calls, List.map_append, sentBy_append, ← Dealings.calls, hh]
        rfl
      intro _
      rw [hsent]
      exact ⟨f', he.mono (List.prefix_append _ _), hf⟩
    | error e => exact fun hsteady => absurd (by simp) (hsteady p e)

theorem refuse_concludes {code : UInt16} {text : String} {e : GatewayError}
    (hh : sentBy h.calls = []) (he : Exchange f i h [.error code text] .ended) :
    (s.refuse code text e).Obeys (fun h _ => Timely f i h) (Concludes f i) h :=
  sendThen_concludes hh he fun _ _ => trivial

theorem follows_proceed (hs : x.connected? = some client) :
    (Footing.talking client).Follows (x, .proceed) := fun _ _ => hs

theorem obeys_unsent {α : Type} {Q : Dealings → α → Prop} {a : Work Session α}
    (ha : a.Obeys (fun _ _ c => c.packet? = none) Q h) (hh : sentBy h.calls = []) :
    a.Obeys (fun (h : Dealings) _ c => c.packet? = none ∧ sentBy h.calls = [])
      (fun (h : Dealings) y => Q h y ∧ sentBy h.calls = []) h := by
  refine ha.keep (I := fun h => sentBy (Dealings.calls h) = []) hh fun h _ c r hc hI => ?_
  rw [Dealings.calls, List.map_append, sentBy_append, ← Dealings.calls, hI]
  simpa [sentBy] using hc

theorem obeys_timely {α : Type} {Q : Dealings → α → Prop} {a : Work Session α}
    (ha : a.Obeys (fun _ _ c => c.packet? = none) Q h) (hh : sentBy h.calls = []) :
    a.Obeys (fun h _ => Timely f i h) (fun (h : Dealings) y => Q h y ∧ sentBy h.calls = []) h := by
  refine (obeys_unsent ha hh).mono (fun h' _ _ c hc => ⟨hc.2, ?_⟩) fun _ _ _ hy => hy
  rintro p rfl
  cases hc.1

theorem reply_concludes {α : Type} {answer : α → Option Packet} {work : Attempt Session α}
    (hw : work.Obeys (fun _ _ c => c.packet? = none) (fun h r =>
      match r with
      | .error e => Exchange f i h [errorPacket e] f
      | .ok a => Exchange f i h (answer a).toList f) h)
    (hh : sentBy h.calls = []) (hf : f.Follows (s, .proceed)) :
    (s.reply answer work).Obeys (fun h _ => Timely f i h) (Concludes f i) h := by
  refine obeys_bind.2 ((obeys_timely hw hh).imp fun h' _ r hr => ?_)
  obtain ⟨he, hh'⟩ := hr
  cases r with
  | error e => exact sendThen_concludes hh' he hf
  | ok a =>
    cases hp : answer a with
    | none =>
      simp only [hp, Option.toList_none] at he ⊢
      exact fun _ => ⟨f, by rwa [hh'], hf⟩
    | some p =>
      simp only [hp, Option.toList_some] at he ⊢
      exact sendThen_concludes hh' he hf

theorem requestFilters_judged (s : Session) (client : ClientId) (action : Action)
    (topics : List String) :
    (requestFilters s client action topics).Obeys (fun _ _ c => c.packet? = none)
      (fun h' r => ∃ asked v, h' = h ++ asked ∧
        Judged Topic.parseFilter client action topics asked v ∧
          r = v.map (List.map (⟨·, action⟩))) h := by
  induction topics generalizing h with
  | nil => exact ⟨[], .ok [], by simp, .none, rfl⟩
  | cons topic rest ih =>
    simp only [requestFilters]
    split
    · rename_i e he
      exact ⟨[], _, by simp, .unreadable he, rfl⟩
    · rename_i c hc
      refine obeys_andThen.2 ⟨rfl, fun r => ?_⟩
      cases r with
      | error e => exact ⟨_, _, rfl, .denied hc, rfl⟩
      | ok u =>
        refine Activity.obeys_done.2 (obeys_andThen.2 (ih.imp fun h' _ r hr => ?_))
        obtain ⟨asked, v, rfl, hj, rfl⟩ := hr
        cases v <;> exact ⟨_, _, by simp, .allowed hc hj, rfl⟩

theorem emitEach_silent (events : List Event) :
    (emitEach s events).Obeys (fun _ _ c => c.packet? = none) (fun _ _ => True) h := by
  induction events generalizing h with
  | nil => trivial
  | cons e rest ih => exact ⟨rfl, fun _ => ih⟩

theorem deregisterEach_silent (gs : List Grant) :
    (deregisterEach st ms s client gs).Obeys (fun _ _ c => c.packet? = none)
      (fun _ _ => True) h := by
  induction gs generalizing h ms with
  | nil => trivial
  | cons g rest ih =>
    refine ⟨rfl, fun removed => ?_⟩
    cases removed with
    | false => exact ih
    | true => exact ⟨rfl, fun _ => ih⟩

/-- What a session does with grants for one of the actions on filters. -/
inductive Uses (x : Session) (st : Settings) (ms : Moments) :
    Action → (List Grant → Attempt Session (List String)) → Prop
  | subscribe (queue : QueueId) : Uses x st ms .subscribe fun gs => x.subscribe st ms gs queue
  | unsubscribe : Uses x st ms .unsubscribe fun gs => x.unsubscribe st ms gs

variable {action : Action} {given : List Grant → Attempt Session (List String)}

theorem bind_returns {α : Type} {work : Work Session Unit}
    (hw : work.Obeys (fun _ _ c => c.packet? = none) (fun _ _ => True) h) (a : α) :
    (work.bind fun _ => .done a).Obeys (fun _ _ c => c.packet? = none) (fun _ r => r = a) h :=
  obeys_bind.2 (hw.imp fun _ _ _ _ => rfl)

theorem Uses.returns (hu : x.Uses st ms action given) (hs : x.connected? = some client)
    (cs : List Channel) :
    (given (cs.map (⟨·, action⟩))).Obeys (fun _ _ c => c.packet? = none)
      (fun _ r => r = .ok (cs.map Topic.edgeFilter)) h := by
  have hnone : misuse? action (cs.map (⟨·, action⟩)) = none := misuse?_eq_none_iff.2 (by simp)
  cases hu with
  | subscribe queue =>
    simp only [Session.subscribe, whenConnected, hs, hnone, List.map_map, Function.comp_def]
    exact ⟨rfl, fun _ => bind_returns (emitEach_silent _) _⟩
  | unsubscribe =>
    simp only [Session.unsubscribe, whenConnected, hs, hnone, List.map_map, Function.comp_def]
    exact bind_returns (deregisterEach_silent _) _

theorem Uses.request_returns (hu : x.Uses st ms action given)
    (hs : x.connected? = some client) (topics : List String) :
    ((requestFilters x client action topics).andThen given).Obeys (fun _ _ c => c.packet? = none)
      (fun h r => ∃ asked v, asked <+: h ∧ Judged Topic.parseFilter client action topics asked v ∧
        r = v.map (List.map Topic.edgeFilter)) [] := by
  refine obeys_andThen.2 ((requestFilters_judged x client action topics).imp fun h' _ r hr => ?_)
  obtain ⟨asked, v, hh, hj, rfl⟩ := hr
  have hasked : asked <+: h' := by
    rw [hh]
    exact List.prefix_refl asked
  cases v with
  | error e => exact ⟨asked, _, hasked, hj, rfl⟩
  | ok cs =>
    refine (hu.returns hs cs).imp fun h'' hh' r hr => ?_
    exact ⟨asked, _, hasked.trans hh', hj, hr⟩

theorem Uses.request_concludes (hu : x.Uses st ms action given)
    (hs : x.connected? = some client) {topics : List String} {p : Packet}
    (hasks : p.Asks Topic.parseFilter action topics) {answer : List String → Packet}
    (hdone : ∀ {asked cs}, Judged Topic.parseFilter client action topics asked (.ok cs) →
      ∀ {h : Dealings}, asked <+: h → p.Answered client h [answer (cs.map Topic.edgeFilter)]) :
    (x.reply (some ∘ answer) ((requestFilters x client action topics).andThen given)).Obeys
      (fun h _ => Timely (.talking client) (.packet p) h)
      (Concludes (.talking client) (.packet p)) [] := by
  refine reply_concludes ?_ rfl (follows_proceed hs)
  refine (hu.request_returns hs topics).imp fun h' _ r hr => ?_
  obtain ⟨asked, v, hasked, hj, rfl⟩ := hr
  cases v with
  | error e =>
    simp only [Except.map, hj.errorPacket_eq]
    exact .answered (.forbidden hasks hj hasked)
  | ok cs => exact .answered (hdone hj hasked)

theorem publish_concludes (hs : x.connected? = some client) (topic : String) (payload : Bytes) :
    (x.packet st ms queue (.publish topic payload)).Obeys
      (fun h _ => Timely (.talking client) (.packet (.publish topic payload)) h)
      (Concludes (.talking client) (.packet (.publish topic payload))) [] := by
  rw [packet_publish hs]
  cases hc : Topic.parse topic with
  | error e =>
    exact sendThen_concludes rfl (.answered (.forbidden (.publish topic payload) (.unreadable hc)
      (List.prefix_refl _))) (follows_proceed hs)
  | ok c =>
    refine ⟨⟨rfl, by simp⟩, fun r => ?_⟩
    cases r with
    | error e =>
      exact sendThen_concludes rfl (.answered (.forbidden (.publish topic payload) (.denied hc)
        (List.prefix_refl _))) (follows_proceed hs)
    | ok u =>
      have hj : Judged Topic.parse client .publish [topic] _ (.ok [c]) := .allowed hc .none
      refine ⟨⟨rfl, by simp⟩, fun r => ?_⟩
      cases r with
      | error e =>
        exact sendThen_concludes rfl (.answered (.unpublished hj (List.prefix_refl _) payload))
          (follows_proceed hs)
      | ok u =>
        exact fun _ => ⟨_, .answered (.published hj (List.prefix_refl _) payload),
          follows_proceed hs⟩

theorem packet_concludes (hs : x.connected? = some client) (p : Packet) :
    (x.packet st ms queue p).Obeys (fun h _ => Timely (.talking client) (.packet p) h)
      (Concludes (.talking client) (.packet p)) [] := by
  cases p with
  | publish topic payload => exact publish_concludes hs topic payload
  | subscribe topics =>
    simp only [packet, authSubscribe, whenConnected, hs]
    exact (Uses.subscribe queue).request_concludes hs (.subscribe topics) .subscribed
  | unsubscribe topics =>
    simp only [packet, authUnsubscribe, whenConnected, hs]
    exact Uses.unsubscribe.request_concludes hs (.unsubscribe topics) .unsubscribed
  | ping => exact sendThen_concludes rfl (.pinged client []) (follows_proceed hs)
  | disconnect => exact fun _ => ⟨.ended, .left client [], fun _ _ => trivial⟩
  | connect secret => exact refuse_concludes rfl (.repeated client secret [])
  | _ => exact sendThen_concludes rfl (.misdirected client rfl []) (follows_proceed hs)

theorem reading_concludes (st : Settings) (m : Moments) (queue : QueueId)
    (hs : x.connected? = some client) {a : Arrival} (hi : a.said? = some i) :
    (x.reading st m queue a).Obeys (fun h _ => Timely (.talking client) i h)
      (Concludes (.talking client) i) [] := by
  cases a with
  | frame bytes =>
    simp only [reading]
    simp only [Arrival.said?] at hi
    cases hb : Packet.ofFrame? bytes with
    | none =>
      simp only [hb] at hi ⊢
      cases hi
      exact refuse_concludes rfl (.garbled (by simp) [])
    | some p =>
      simp only [hb] at hi ⊢
      cases hi
      exact packet_concludes hs p
  | closed =>
    cases hi
    exact fun _ => ⟨.ended, .closed (by simp) [], fun _ _ => trivial⟩
  | failed e =>
    cases hi
    exact fun _ => ⟨.ended, .failed (by simp) e [], fun _ _ => trivial⟩
  | silence | stop => cases hi

theorem connect_concludes (hs : s.phase = .fresh) {bytes : Bytes} {secret : String}
    (hb : Packet.ofFrame? bytes = some (.connect secret)) :
    (s.opening st m (.frame bytes)).Obeys
      (fun h _ => Timely .awaiting (.packet (.connect secret)) h)
      (Concludes .awaiting (.packet (.connect secret))) [] := by
  rw [opening_connect hs hb]
  split
  · rename_i hempty
    exact refuse_concludes rfl (.refused (.inl hempty))
  · rename_i hne
    refine ⟨⟨rfl, by simp⟩, fun r => ?_⟩
    cases r with
    | error e => exact refuse_concludes rfl (.refused (.inr ⟨e, List.prefix_refl _⟩))
    | ok client =>
      refine ⟨⟨rfl, by simp⟩, fun r => ?_⟩
      exact sendThen_concludes rfl (.accepted hne (List.prefix_append _ _)) fun _ _ => rfl

theorem opening_concludes (st : Settings) (m : Moment) (hs : s.phase = .fresh) {a : Arrival}
    (hi : a.said? = some i) :
    (s.opening st m a).Obeys (fun h _ => Timely .awaiting i h) (Concludes .awaiting i) [] := by
  cases a with
  | frame bytes =>
    simp only [Arrival.said?] at hi
    cases hb : Packet.ofFrame? bytes with
    | none =>
      simp only [opening, hb] at hi ⊢
      cases hi
      exact refuse_concludes rfl (.garbled (by simp) [])
    | some p =>
      simp only [hb] at hi
      cases hi
      cases p with
      | connect secret => exact connect_concludes hs hb
      | _ =>
        simp only [opening, hb]
        exact refuse_concludes rfl (.uninvited (by simp) [])
  | closed =>
    cases hi
    exact fun _ => ⟨.ended, .closed (by simp) [], fun _ _ => trivial⟩
  | failed e =>
    cases hi
    exact fun _ => ⟨.ended, .failed (by simp) e [], fun _ _ => trivial⟩
  | silence | stop => cases hi

end Session

theorem Footing.Stands.arrive {f : Footing} {v : Serving} (hf : f.Stands v)
    (hv : v.waits = true) (st : Settings) (m : Moments) (queue : QueueId) {a : Arrival} {i : Said}
    (hi : a.said? = some i) {w : Work Session (Session × Next)}
    (ha : v.arrive st m queue a = .working w) :
    w.Obeys (fun h _ => Timely f i h) (Concludes f i) [] := by
  rcases v with x | x | w | ⟨outcome, w⟩
  · cases f with
    | awaiting =>
      cases ha
      exact Session.opening_concludes st (m 0) hf hi
    | _ => exact hf.elim
  · cases f with
    | talking client =>
      cases ha
      exact Session.reading_concludes st m queue hf hi
    | _ => exact hf.elim
  · cases hv
  · cases hv

/-- What was said could be read in time, and nothing that was sent then failed. -/
structure Round.Calm (r : Round) : Prop where
  said : r.arrival.said? ≠ none
  steady : Steady r.dealings

section
variable {st : Settings} {queue : QueueId} {name : String} {protocol : Protocol}
variable {rs : List Round} {v : Serving}

theorem sentBy_rounds (rs : List Round) (r : Round) :
    sentBy ((rs ++ [r]).flatMap Round.calls) =
      sentBy (rs.flatMap Round.calls) ++ sentBy r.calls := by
  simp [sentBy_append]

theorem Handled.conversation (h : Handled st queue (.opening (.start name protocol)) rs v)
    (hc : ∀ r ∈ rs, r.Calm) :
    ∃ f, Conversation rs (sentBy (rs.flatMap Round.calls)) f ∧ f.Stands v := by
  induction h with
  | start => exact ⟨.awaiting, .start, rfl⟩
  | @round rs v h hv m a w ha d y next hr hn ih =>
    obtain ⟨hc, hcalm⟩ := List.forall_mem_append.1 hc
    rw [List.forall_mem_singleton] at hcalm
    obtain ⟨f, hconversation, hf⟩ := ih hc
    obtain ⟨i, hi⟩ := Option.ne_none_iff_exists'.1 hcalm.said
    obtain ⟨f', he, hfollows⟩ := (hf.arrive hv st m queue hi ha).result hr hcalm.steady
    refine ⟨f', ?_, ?_⟩
    · rw [sentBy_rounds]
      exact hconversation.exchange hi he
    · cases next with
      | leave outcome => exact absurd rfl (hn outcome)
      | begin | proceed => exact hfollows st (m 0)

theorem Served.concluded {y : Session × Next}
    (h : Served st queue (.opening (.start name protocol)) rs (.working (.done y)))
    (hc : ∀ r ∈ rs, r.Calm) :
    ∃ f, Conversation rs (sentBy (rs.flatMap Round.calls)) f ∧ f.Follows y := by
  cases h with
  | between _ hv => cases hv
  | @within rs v h hv m a w ha d _ hr =>
    obtain ⟨hc, hcalm⟩ := List.forall_mem_append.1 hc
    rw [List.forall_mem_singleton] at hcalm
    obtain ⟨f, hconversation, hf⟩ := h.conversation hc
    obtain ⟨i, hi⟩ := Option.ne_none_iff_exists'.1 hcalm.said
    obtain ⟨f', he, hfollows⟩ := (hf.arrive hv st m queue hi ha).result hr hcalm.steady
    refine ⟨f', ?_, hfollows⟩
    rw [sentBy_rounds]
    exact hconversation.exchange hi he

theorem Served.undecided {t : Session} {c : Call} {k : c.Reply → Work Session (Session × Next)}
    (h : Served st queue (.opening (.start name protocol)) rs (.working (.call t c k)))
    (hc : ∀ r ∈ rs, r.Calm) (asked : Bool) :
    ∃ rs' f, Conversation rs' (sentBy (rs.flatMap Round.calls ++
        (Serving.working (.call t c k)).pending asked)) f ∧
      (rs' = rs ∨ f ≠ .ended ∧ rs' = rs.dropLast) := by
  cases h with
  | between _ hv => cases hv
  | @within rs v h hv m a w ha d _ hr =>
    obtain ⟨hc, hcalm⟩ := List.forall_mem_append.1 hc
    rw [List.forall_mem_singleton] at hcalm
    obtain ⟨f, hconversation, hf⟩ := h.conversation hc
    obtain ⟨i, hi⟩ := Option.ne_none_iff_exists'.1 hcalm.said
    have htimely : Timely f i d c := (hf.arrive hv st m queue hi ha).call hr
    have hunsent : sentBy (Round.calls ⟨a, d⟩) = [] := htimely.unsent
    rw [sentBy_append, sentBy_rounds, hunsent, List.append_nil]
    by_cases hsends : asked = true ∧ ∃ p, c = .send p
    · obtain ⟨rfl, p, rfl⟩ := hsends
      obtain ⟨f', he⟩ := htimely.sends p rfl
      exact ⟨_, f', hconversation.exchange hi he, .inl rfl⟩
    · have hnone : sentBy ((Serving.working (.call t c k)).pending asked) = [] := by
        cases asked with
        | false => rfl
        | true =>
          cases c with
          | send p => exact absurd ⟨rfl, p, rfl⟩ hsends
          | _ => rfl
      rw [hnone, List.append_nil]
      refine ⟨rs, f, hconversation, .inr ⟨?_, by simp⟩⟩
      rintro rfl
      rcases v with x | x | w | ⟨outcome, w⟩
      · exact hf
      · exact hf
      · cases hv
      · cases hv

theorem sentBy_of_parts {cs : List Call} (hcs : ∀ c ∈ cs, v.Parts c) : sentBy cs = [] := by
  refine List.filterMap_eq_nil_iff.2 fun c hc => ?_
  obtain ⟨x, t, -, hfarewell⟩ := hcs c hc
  cases hfarewell <;> rfl

end

/-- Nothing is sent in vain, nothing times out, and nobody stops the line or cuts it off. -/
structure Calm (acts : List Act) : Prop where
  uncut : .cut ∉ acts
  unhalted : .halt ∉ acts
  said : ∀ a, .arrive a ∈ acts → a.said? ≠ none
  sent : ∀ p e, .hear (.send p) (.error e) ∉ acts

def Act.arrival? : Act → Option Arrival
  | arrive a => some a
  | _ => none

theorem Rounds.arrivals_after (r : Rounds) (act : Act) :
    (r.after act).all.map (·.arrival) = r.all.map (·.arrival) ++ act.arrival?.toList := by
  cases act with
  | hear c x =>
    cases hr : r.current <;> simp [after, all, Act.arrival?, hr]
  | _ => simp [after, all, Act.arrival?]

theorem arrivals_rounds (acts : List Act) :
    (rounds acts).map (·.arrival) = acts.filterMap Act.arrival? := by
  suffices h : ∀ r : Rounds, (acts.foldl Rounds.after r).all.map (·.arrival) =
      r.all.map (·.arrival) ++ acts.filterMap Act.arrival? from h {}
  induction acts with
  | nil => simp
  | cons act acts ih =>
    intro r
    rw [List.foldl_cons, ih, Rounds.arrivals_after, List.append_assoc]
    cases h : act.arrival? <;> simp [h]

section
variable {st : Settings} {queue : QueueId} {name : String} {protocol : Protocol} {acts : List Act}
variable {l : Line}

theorem Calm.rounds (h : Calm acts)
    (hr : Line.Run st queue { serving := .opening (.start name protocol) } acts l) :
    ∀ r ∈ rounds acts, r.Calm := by
  intro r hmem
  refine ⟨h.said _ ?_, fun p e he => h.sent p e ?_⟩
  · have harrival := List.mem_map_of_mem (f := Round.arrival) hmem
    rw [arrivals_rounds] at harrival
    obtain ⟨act, hact, heq⟩ := List.mem_filterMap.1 harrival
    cases act <;> cases heq
    exact hact
  · obtain ⟨left, last, parting, -, hheard, -⟩ := hr.account
    have hin : (⟨.send p, .error e⟩ : Σ c : Call, c.Reply) ∈ heard acts := by
      rw [hheard]
      exact List.mem_append_left _ (List.mem_flatMap.2 ⟨r, hmem, he⟩)
    obtain ⟨act, hact, heq⟩ := List.mem_filterMap.1 hin
    cases act <;> cases heq
    exact hact

theorem Line.Run.conversation
    (hr : Line.Run st queue { serving := .opening (.start name protocol) } acts l)
    (hc : Calm acts) :
    ∃ rs f, Conversation rs (sent acts) f ∧
      (rs = DeviceGateway.rounds acts ∨ f ≠ .ended ∧ rs = (DeviceGateway.rounds acts).dropLast) ∧
      ((∀ w, l.serving ≠ .working w) → rs = DeviceGateway.rounds acts ∧ f.Stands l.serving) := by
  have hcalm := hc.rounds hr
  have hwhole : (Rounds.ofActs acts).broken ≠ true := fun hbroken =>
    (Rounds.broken_ofActs hbroken).elim hc.uncut hc.unhalted
  rw [sent]
  cases hr.situation with
  | waiting hcur hw hp hh hcs =>
    obtain ⟨f, hconversation, hf⟩ := hp.conversation hcalm
    rw [hcs]
    exact ⟨_, f, hconversation, .inl rfl, fun _ => ⟨rfl, hf⟩⟩
  | @working o w hcur hw hp hh hcs =>
    rw [hcs, hw]
    cases w with
    | done y =>
      obtain ⟨f, hconversation, -⟩ := hp.concluded hcalm
      have hpending : (Serving.working (.done y)).pending l.asked = [] := by
        simp [Serving.pending, Serving.call?]
      rw [hpending, List.append_nil]
      exact ⟨_, f, hconversation, .inl rfl, fun hn => absurd rfl (hn _)⟩
    | call t c k =>
      obtain ⟨rs, f, hconversation, hrs⟩ := hp.undecided hcalm l.asked
      exact ⟨rs, f, hconversation, hrs, fun hn => absurd rfl (hn _)⟩
  | @leaving left x outcome w h' parting hcur hw hp hx hend hwork hh hheard hcs hparting =>
    obtain ⟨outcome', rfl⟩ := hend.resolve_right hwhole
    obtain ⟨f, hconversation, hf⟩ := hp.concluded hcalm
    have hover := hf st ⟨0, 0⟩
    refine ⟨_, f, ?_, .inl rfl, fun _ => ⟨rfl, ?_⟩⟩
    · have hpending : (Serving.working (.done (x, .leave outcome'))).pending true = [] := rfl
      rw [hcs, hpending, List.append_nil, sentBy_append, sentBy_of_parts hparting, List.append_nil]
      exact hconversation
    · rw [hw]
      cases f with
      | ended => trivial
      | _ => exact hover.elim

end

namespace Line
variable {st : Settings} {queue : QueueId} {name : String} {protocol : Protocol} {acts : List Act}
variable {l : Line}

/-- What a line has sent is decided by what was said to it and what it was replied, one exchange
after the other: it is the only conversation that its rounds make, but for the last while that is
dealt with. Wherever the line waits or leaves, the conversation has come as far. The acceptance of
the secret is sent first, and never again. -/
theorem replies_follow_requests
    (hr : Run st queue { serving := .opening (.start name protocol) } acts l) (hc : Calm acts) :
    ∃ rs f, Conversation rs (sent acts) f ∧
      (∀ ps f', Conversation rs ps f' → ps = sent acts ∧ f' = f) ∧
      (rs = rounds acts ∨ f ≠ .ended ∧ rs = (rounds acts).dropLast) ∧
      ((∀ w, l.serving ≠ .working w) → rs = rounds acts ∧ f.Stands l.serving) ∧
      (rounds acts).map (·.arrival) = acts.filterMap Act.arrival? ∧
      .connAck ∉ (sent acts).tail ∧
      ∀ client, f = .talking client → (sent acts).head? = some .connAck := by
  obtain ⟨rs, f, hconversation, hrs, hrest⟩ := hr.conversation hc
  obtain ⟨-, htail, hhead⟩ := hconversation.connAck
  exact ⟨rs, f, hconversation, fun _ _ h => h.unique hconversation, hrs, hrest,
    arrivals_rounds acts, htail, hhead⟩

theorem replies_follow_requests_of_denial : ∃ (acts : List Act) (l : Line),
    Run {} 0 { serving := .opening (.start "1" .ws) } acts l ∧ Calm acts ∧
    Conversation (rounds acts)
      [.connAck, .error 403 "authorization failed: a may not publish on channel c"]
      (.talking ⟨"a"⟩) := by
  let s : Services := { registrar := { store := ⟨[]⟩ }, policy := ⟨[]⟩ }
  have hconnect := Packet.ofFrame?_frame (.connect "key")
  have hpublish := Packet.ofFrame?_frame (.publish "channels/c/messages" [1])
  have hparse : Topic.parse "channels/c/messages" = .ok ⟨⟨"c", by decide⟩, ""⟩ := by decide
  have hconnected : (connectedAs "1" .ws "key" ⟨"a"⟩ ⟨0, 0⟩).connected? = some ⟨"a"⟩ := rfl
  have hgreeted := path_greeting 0 s "1" .ws hconnect (by decide) ⟨"a"⟩ ⟨0, 0⟩
  have harrived := hgreeted.step
    (.arrive (fun _ => ⟨0, 0⟩) (.frame (Packet.publish "channels/c/messages" [1]).frame) rfl rfl)
  simp only [Serving.arrive, Session.reading, hpublish, Session.packet_publish hconnected, hparse]
    at harrived
  have hdenied := harrived.call rfl rfl rfl
    (s.answers_unchanged (c := .authorize _ _ _) rfl
      (.error (.denied ⟨"a"⟩ ⟨"c", by decide⟩ .publish)))
  have hsent := hdenied.call rfl rfl rfl (s.answers_unchanged (c := .send _) rfl (.ok ()))
  have hsettled := hsent.step (.settle ⟨0, 0⟩ rfl rfl)
  obtain ⟨-, hrun⟩ := Run.start.path rfl hsettled
  refine ⟨_, _, hrun, (and_iff_left_of_imp fun hcalm => ?_).2 ?_⟩
  · obtain ⟨rs, f, hconversation, -, -, hrest, -⟩ := replies_follow_requests hrun hcalm
    obtain ⟨rfl, hf⟩ := hrest (by simp [Serving.settle])
    cases f with
    | talking client =>
      have hclient : some ⟨"a"⟩ = some client := hf
      cases hclient
      exact hconversation
    | _ => exact hf.elim
  · refine ⟨?_, ?_, ?_, ?_⟩
    · simp [greeting, answered, Call.isAwaited]
    · simp [greeting, answered, Call.isAwaited]
    · simp [greeting, answered, Call.isAwaited, Arrival.said?, hconnect, hpublish]
    · simp [greeting, answered, Call.isAwaited]

end Line

end DeviceGateway
