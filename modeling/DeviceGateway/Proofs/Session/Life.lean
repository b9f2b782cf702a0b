import DeviceGateway.Proofs.Activity.Reaches
import DeviceGateway.Proofs.Session.SharedSessions
import DeviceGateway.Proofs.Session.Serving

/-!
# The life of a session

Hooks are called on one session, one after the other, in any order and with any arguments and
grants; all that they call may reply anything or never reply. `Session.Stride` lists what a single
call of a hook can come to. From it follow the phases of the session, whom it belongs to, and the
events that it has recorded.
-/

namespace DeviceGateway

inductive Phase.Moves : Phase → Phase → Prop
  | stay (p : Phase) : Moves p p
  | authenticate : Moves .fresh .connecting
  | reject : Moves .fresh .rejected
  | connect : Moves .connecting .connected
  | disconnect {p : Phase} (hp : p = .fresh ∨ p = .connecting ∨ p = .connected) :
      Moves p .disconnected

def Hook.isAllowed (p : Phase) : Hook → Bool
  | authConnect _ => p = .fresh
  | connect => p = .connecting
  | disconnect => true
  | _ => p = .connected

def Hook.leads (p : Phase) (ok : Bool) : Hook → Phase
  | authConnect _ => if p = .fresh then if ok then .connecting else .rejected else p
  | connect => if p = .connecting then .connected else p
  | disconnect => if p = .rejected then .rejected else .disconnected
  | _ => p

def Call.event? : Call → Option Event
  | record e => some e
  | _ => none

def eventsOf (cs : List Call) : List Event := cs.filterMap Call.event?

def acceptedIn (d : Dealings) : List (String × ClientId) :=
  d.filterMap fun
    | ⟨.identify secret, .ok client⟩ => some (secret, client)
    | _ => none

/-- The work has been done to its end, or was given up while it waited for the reply to a call. -/
inductive Comes {ρ : Type} (w : Work Session (Session × ρ)) :
    Dealings → Option Call → Session → Option ρ → Prop
  | finished {d : Dealings} {t : Session} {r : ρ} (hr : w.Reaches d (.done (t, r))) :
      Comes w d none t (some r)
  | givenUp {d : Dealings} {t : Session} {c : Call} {k : c.Reply → Work Session (Session × ρ)}
      (hr : w.Reaches d (.call t c k)) (hc : c.isAwaited = true) : Comes w d (some c) t none

structure Turn where
  hook : Hook
  before : Session
  dealings : Dealings
  asked : Option Call
  after : Session
  result : Option (Except GatewayError (List Grant))

/-- The hooks that were called on the session `s₀` up to now, and the session that they left. -/
inductive Life (s₀ : Session) : List Turn → Session → Prop
  | start : Life s₀ [] s₀
  | turn {turns : List Turn} {s : Session} (hl : Life s₀ turns s) (st : Settings) (m : Moments)
      (queue : QueueId) (hook : Hook) {d : Dealings} {asked : Option Call} {t : Session}
      {r : Option (Except GatewayError (List Grant))}
      (hc : Comes (hook.work st m queue s) d asked t r) :
      Life s₀ (turns ++ [⟨hook, s, d, asked, t, r⟩]) t

def Turn.calls (t : Turn) : List Call := t.dealings.calls ++ t.asked.toList

def offered (turns : List Turn) : List Event := turns.flatMap fun t => eventsOf t.calls

def accepted (turns : List Turn) : List (String × ClientId) :=
  turns.flatMap fun t => acceptedIn t.dealings

section
variable {ρ : Type} {d : Dealings} {asked : Option Call} {s t : Session} {r : Option ρ}

theorem comes_done {x : Session × ρ} (hc : Comes (.done x) d asked t r) :
    d = [] ∧ asked = none ∧ t = x.1 ∧ r = some x.2 := by
  cases hc with
  | finished hr =>
    obtain ⟨rfl, heq⟩ := Activity.reaches_done_iff.1 hr
    cases heq
    exact ⟨rfl, rfl, rfl, rfl⟩
  | givenUp hr _ =>
    obtain ⟨-, heq⟩ := Activity.reaches_done_iff.1 hr
    cases heq

theorem comes_call {c : Call} {k : c.Reply → Work Session (Session × ρ)}
    (hc : Comes (.call s c k) d asked t r) :
    c.isAwaited = true ∧ d = [] ∧ asked = some c ∧ t = s ∧ r = none ∨
      ∃ reply d', d = ⟨c, reply⟩ :: d' ∧ Comes (k reply) d' asked t r := by
  cases hc with
  | finished hr =>
    rcases Activity.reaches_call_iff.1 hr with ⟨-, heq⟩ | ⟨reply, d', rfl, hrest⟩
    · cases heq
    · exact .inr ⟨reply, d', rfl, .finished hrest⟩
  | givenUp hr hawaited =>
    rcases Activity.reaches_call_iff.1 hr with ⟨rfl, heq⟩ | ⟨reply, d', rfl, hrest⟩
    · cases heq
      exact .inl ⟨hawaited, rfl, rfl, rfl, rfl⟩
    · exact .inr ⟨reply, d', rfl, .givenUp hrest hawaited⟩

end

structure Call.Serves (client : ClientId) (c : Call) : Prop where
  known : ∀ secret, c ≠ .identify secret
  record : ∀ e, c = .record e →
    e.client = client ∧ (e.operation = .subscribe ∨ e.operation = .unsubscribe)

/-- What one call of a hook on the session `s` comes to: the calls that it makes, the secrets that
are accepted meanwhile, what it returns unless it is given up, and the session that it leaves. -/
inductive Hook.Stride (s : Session) : Hook → List Call → List (String × ClientId) →
    Option (Except GatewayError (List Grant)) → Session → Prop
  | refuse {hook : Hook} (h : hook.isAllowed s.phase = false) :
      Stride s hook [] [] (some (.error .notConnected)) s
  | enquire (hs : s.phase = .fresh) (secret : String) :
      Stride s (.authConnect secret) [.identify secret] [] none { s with secret := secret }
  | reject (hs : s.phase = .fresh) (secret : String) {cs : List Call}
      (hcs : cs = [] ∨ cs = [.identify secret]) (e : GatewayError) :
      Stride s (.authConnect secret) cs [] (some (.error e))
        { s with secret := secret, phase := .rejected }
  | accept (hs : s.phase = .fresh) (secret : String) (client : ClientId) :
      Stride s (.authConnect secret) [.identify secret] [(secret, client)] (some (.ok []))
        { s with secret := secret, phase := .connecting, client := some client }
  | connect (hs : s.phase = .connecting) {client : ClientId} (hc : s.client = some client)
      (st : Settings) (m : Moment) {r : Option (Except GatewayError (List Grant))}
      (hr : r = none ∨ r = some (.ok [])) :
      Stride s .connect [.record (.ofSession .connect client s.protocol st.instanceName m)] [] r
        { s with phase := .connected, connectedAt := some m }
  | work {hook : Hook} {client : ClientId} (hs : s.connected? = some client)
      (hwork : hook.isAllowed .connected = true) (hne : hook ≠ .disconnect) {cs : List Call}
      (hcs : ∀ c ∈ cs, c.Serves client) (r : Option (Except GatewayError (List Grant))) :
      Stride s hook cs [] r s
  | ended (hs : s.phase = .disconnected ∨ s.phase = .rejected) :
      Stride s .disconnect [] [] (some (.ok [])) s
  | leave (hs : s.phase = .fresh ∨ s.phase = .connecting) :
      Stride s .disconnect [] [] (some (.ok [])) { s with phase := .disconnected }
  | close {client : ClientId} (hs : s.connected? = some client) (st : Settings) (m : Moment)
      {r : Option (Except GatewayError (List Grant))} (hr : r = none ∨ r = some (.ok [])) :
      Stride s .disconnect [.deregisterOwner s.owner,
          .record (.ofSession .disconnect client s.protocol st.instanceName m)] [] r
        { s with phase := .disconnected }

def Session.Owned (s : Session) : Prop :=
  s.phase = .connecting ∨ s.phase = .connected → ∃ client, s.client = some client

section
variable {s t : Session} {gs : List Grant} {queue : QueueId} {d : Dealings} {asked : Option Call}
variable {client : ClientId} {st : Settings} {m : Moments} {hook : Hook}
variable {r : Option (Except GatewayError (List Grant))}

theorem Session.whenConnected_of_none {α : Type} (hs : s.connected? = none)
    (f : ClientId → Attempt Session α) : s.whenConnected f = .done (.error .notConnected) := by
  rw [whenConnected, hs]

theorem Hook.work_of_not_isAllowed (h : hook.isAllowed s.phase = false) :
    hook.work st m queue s = .done (s, .error .notConnected) := by
  cases hook with
  | authConnect secret =>
    have hs : s.phase ≠ .fresh := by simpa [isAllowed] using h
    simp [work, Session.authConnect, hs, Activity.bind_done, Except.map]
  | connect =>
    have hs : s.phase ≠ .connecting := by simpa [isAllowed] using h
    simp only [work, Session.connect]
    split
    · contradiction
    · rfl
  | disconnect => cases h
  | _ =>
    have hs : s.connected? = none := by
      have hphase : s.phase ≠ .connected := by simpa [isAllowed] using h
      simp [Session.connected?, hphase]
    first
      | exact congrArg (Activity.bind _) (Session.whenConnected_of_none hs _)

theorem Session.Conduct.serves {c : Call} (h : s.Conduct gs queue t c)
    (hs : s.connected? = some client) : c.Serves client := by
  have hconnected := (Session.connected?_eq_some_iff.1 hs).1
  cases h with
  | identify hfresh => simp [hconnected] at hfresh
  | recordStart hconnecting => simp [hconnected] at hconnecting
  | @recordChange client' hs' g hg operation ho st m =>
    refine ⟨nofun, fun e he => ?_⟩
    cases he
    exact ⟨Option.some.inj (hs'.symm.trans hs), ho⟩
  | _ => exact ⟨by simp, by simp⟩

theorem acceptedIn_of_serves (hd : ∀ c ∈ d.calls, c.Serves client) : acceptedIn d = [] := by
  refine List.filterMap_eq_nil_iff.2 fun x hx => ?_
  have hserves := hd x.1 (List.mem_map_of_mem hx)
  obtain ⟨c, reply⟩ := x
  cases c with
  | identify secret => exact absurd rfl (hserves.known secret)
  | _ => rfl

theorem stride_of_conduct (gs : List Grant) (queue : QueueId) {α : Type} {Q : Dealings → α → Prop}
    {a : Work Session α} {f : α → Except GatewayError (List Grant)}
    (hs : s.connected? = some client) (hwork : hook.isAllowed .connected = true)
    (hne : hook ≠ .disconnect)
    (ha : a.Obeys (fun _ => s.Conduct gs queue) Q [])
    (hc : Comes (a.bind fun x => .done (s, f x)) d asked t r) :
    hook.Stride s (d.calls ++ asked.toList) (acceptedIn d) r t := by
  have hobeys : (a.bind fun x => .done (s, f x)).Obeys (fun _ => s.Conduct gs queue)
      (fun _ x => x.1 = s) [] :=
    Activity.obeys_bind.2 (ha.imp fun _ _ _ _ => rfl)
  have hserves : ∀ {b}, (a.bind fun x => .done (s, f x)).Reaches d b →
      ∀ c ∈ d.calls, c.Serves client := by
    intro b hr c hmem
    obtain ⟨x, hx, rfl⟩ := List.mem_map.1 hmem
    obtain ⟨_, _, -, hconduct⟩ := hobeys.of_mem hr hx
    exact hconduct.serves hs
  cases hc with
  | finished hr =>
    obtain rfl := hobeys.result hr
    rw [acceptedIn_of_serves (hserves hr)]
    exact .work hs hwork hne (by simpa using hserves hr) _
  | @givenUp t c k hr hawaited =>
    have hconduct := hobeys.call hr
    obtain rfl := hconduct.eq_of_connected (Session.connected?_eq_some_iff.1 hs).1
    rw [acceptedIn_of_serves (hserves hr)]
    refine .work hs hwork hne (fun c' hc' => ?_) _
    rcases List.mem_append.1 hc' with hc' | hc'
    · exact hserves hr c' hc'
    · rw [List.mem_singleton.1 hc']
      exact hconduct.serves hs

theorem stride_authConnect {secret : String} (hs : s.phase = .fresh)
    (hc : Comes ((Hook.authConnect secret).work st m queue s) d asked t r) :
    (Hook.authConnect secret).Stride s (d.calls ++ asked.toList) (acceptedIn d) r t := by
  simp only [Hook.work, Session.authConnect] at hc
  rw [if_neg (by simpa using hs)] at hc
  by_cases hempty : secret = ""
  · rw [if_pos hempty] at hc
    obtain ⟨rfl, rfl, rfl, rfl⟩ := comes_done hc
    exact .reject hs secret (.inl rfl) _
  · rw [if_neg hempty] at hc
    rcases comes_call hc with ⟨-, rfl, rfl, rfl, rfl⟩ | ⟨reply, d', rfl, hreply⟩
    · exact .enquire hs secret
    · cases reply with
      | ok client =>
        obtain ⟨rfl, rfl, rfl, rfl⟩ := comes_done hreply
        exact .accept hs secret client
      | error e =>
        obtain ⟨rfl, rfl, rfl, rfl⟩ := comes_done hreply
        exact .reject hs secret (.inr rfl) _

theorem stride_connect (hs : s.phase = .connecting) (hclient : s.client = some client)
    (hc : Comes (Hook.connect.work st m queue s) d asked t r) :
    Hook.connect.Stride s (d.calls ++ asked.toList) (acceptedIn d) r t := by
  simp only [Hook.work, Session.connect, hs, hclient] at hc
  rcases comes_call hc with ⟨-, rfl, rfl, rfl, rfl⟩ | ⟨reply, d', rfl, hreply⟩
  · have hstride := Hook.Stride.connect hs hclient st (m 0) (.inl rfl)
    rwa [hclient] at hstride
  · obtain ⟨rfl, rfl, rfl, rfl⟩ := comes_done hreply
    have hstride := Hook.Stride.connect hs hclient st (m 0) (.inr rfl)
    rwa [hclient] at hstride

theorem stride_disconnect (ho : s.Owned)
    (hc : Comes (Hook.disconnect.work st m queue s) d asked t r) :
    Hook.disconnect.Stride s (d.calls ++ asked.toList) (acceptedIn d) r t := by
  simp only [Hook.work, Session.disconnect] at hc
  split at hc
  · rename_i hs
    obtain ⟨rfl, rfl, rfl, rfl⟩ := comes_done hc
    exact .ended (.inl hs)
  · rename_i hs
    obtain ⟨rfl, rfl, rfl, rfl⟩ := comes_done hc
    exact .ended (.inr hs)
  · rename_i hs
    obtain ⟨rfl, rfl, rfl, rfl⟩ := comes_done hc
    exact .leave (.inl hs)
  · rename_i hs
    obtain ⟨rfl, rfl, rfl, rfl⟩ := comes_done hc
    exact .leave (.inr hs)
  · rename_i hs
    obtain ⟨client, hclient⟩ := ho (.inr hs)
    have hconnected := Session.connected?_eq_some_iff.2 ⟨hs, hclient⟩
    -- The removal is over at once, so the hook can only be given up while the event is recorded.
    rcases comes_call hc with ⟨hawaited, -⟩ | ⟨n, d', rfl, hrest⟩
    · cases hawaited
    · simp only [hclient] at hrest
      rcases comes_call hrest with ⟨-, rfl, rfl, rfl, rfl⟩ | ⟨reply, d'', rfl, hlast⟩
      · have hstride := Hook.Stride.close hconnected st (m 0) (.inl rfl)
        rwa [hclient] at hstride
      · obtain ⟨rfl, rfl, rfl, rfl⟩ := comes_done hlast
        have hstride := Hook.Stride.close hconnected st (m 0) (.inr rfl)
        rwa [hclient] at hstride

theorem Hook.stride (ho : s.Owned) (hc : Comes (hook.work st m queue s) d asked t r) :
    hook.Stride s (d.calls ++ asked.toList) (acceptedIn d) r t := by
  by_cases hallowed : hook.isAllowed s.phase = true
  · have hclient : s.phase = .connected → ∃ client, s.connected? = some client := by
      intro hs
      obtain ⟨client, hclient⟩ := ho (.inr hs)
      exact ⟨client, Session.connected?_eq_some_iff.2 ⟨hs, hclient⟩⟩
    cases hook with
    | authConnect secret => exact stride_authConnect (of_decide_eq_true hallowed) hc
    | connect =>
      have hs : s.phase = .connecting := of_decide_eq_true hallowed
      obtain ⟨client, hclient⟩ := ho (.inl hs)
      exact stride_connect hs hclient hc
    | disconnect => exact stride_disconnect ho hc
    | authPublish topic =>
      obtain ⟨client, hs⟩ := hclient (of_decide_eq_true hallowed)
      exact stride_of_conduct [] queue hs rfl (by simp) (Session.authPublish_obeys topic) hc
    | publish g payload =>
      obtain ⟨client, hs⟩ := hclient (of_decide_eq_true hallowed)
      exact stride_of_conduct [g] queue hs rfl (by simp)
        (Session.publish_obeys (List.mem_singleton_self g) payload) hc
    | authSubscribe topics =>
      obtain ⟨client, hs⟩ := hclient (of_decide_eq_true hallowed)
      exact stride_of_conduct [] queue hs rfl (by simp) (Session.authSubscribe_obeys topics) hc
    | subscribe gs =>
      obtain ⟨client, hs⟩ := hclient (of_decide_eq_true hallowed)
      exact stride_of_conduct gs queue hs rfl (by simp) Session.subscribe_obeys hc
    | authUnsubscribe topics =>
      obtain ⟨client, hs⟩ := hclient (of_decide_eq_true hallowed)
      exact stride_of_conduct [] queue hs rfl (by simp) (Session.authUnsubscribe_obeys topics) hc
    | unsubscribe gs =>
      obtain ⟨client, hs⟩ := hclient (of_decide_eq_true hallowed)
      exact stride_of_conduct gs queue hs rfl (by simp) Session.unsubscribe_obeys hc
  · have hrefused : hook.isAllowed s.phase = false := Bool.eq_false_iff.2 hallowed
    rw [Hook.work_of_not_isAllowed hrefused] at hc
    obtain ⟨rfl, rfl, rfl, rfl⟩ := comes_done hc
    exact .refuse hrefused

end

/-- The record of a session at work for `client`: its connect, and its changes since. -/
structure Told (client : ClientId) (events : List Event) : Prop where
  operations : ∃ changes, events.map (·.operation) = .connect :: changes ∧
    ∀ o ∈ changes, o = .subscribe ∨ o = .unsubscribe
  client : ∀ e ∈ events, e.client = client

inductive Session.Story (s : Session) : List Event → List (String × ClientId) → Prop
  | stranger (hs : s.phase = .fresh ∨ s.phase = .rejected ∨ s.phase = .disconnected)
      (hc : s.client = none) : Story s [] []
  | known {client : ClientId} (hs : s.phase = .connecting ∨ s.phase = .disconnected)
      (hc : s.client = some client) : Story s [] [(s.secret, client)]
  | working {client : ClientId} (hs : s.connected? = some client) {events : List Event}
      (he : Told client events) : Story s events [(s.secret, client)]
  | ended {client : ClientId} (hs : s.phase = .disconnected) (hc : s.client = some client)
      {events : List Event} (he : Told client events) {last : Event}
      (ho : last.operation = .disconnect) (hlast : last.client = client) :
      Story s (events ++ [last]) [(s.secret, client)]

namespace Told
variable {client : ClientId} {events changes : List Event} {e : Event}

theorem start (ho : e.operation = .connect) (hc : e.client = client) : Told client [e] where
  operations := ⟨[], by simp [ho], by simp⟩
  client := by simpa using hc

theorem change (h : Told client events) (hchanges : ∀ e ∈ changes,
    e.client = client ∧ (e.operation = .subscribe ∨ e.operation = .unsubscribe)) :
    Told client (events ++ changes) where
  operations := by
    obtain ⟨before, heq, hall⟩ := h.operations
    refine ⟨before ++ changes.map (·.operation), by simp [heq], fun o ho => ?_⟩
    rcases List.mem_append.1 ho with ho | ho
    · exact hall o ho
    · obtain ⟨e, he, rfl⟩ := List.mem_map.1 ho
      exact (hchanges e he).2
  client := fun e he => by
    rcases List.mem_append.1 he with he | he
    · exact h.client e he
    · exact (hchanges e he).1

end Told

theorem mem_eventsOf {cs : List Call} {e : Event} : e ∈ eventsOf cs ↔ .record e ∈ cs := by
  rw [eventsOf, List.mem_filterMap]
  constructor
  · rintro ⟨c, hc, he⟩
    cases c with
    | record e' =>
      cases he
      exact hc
    | _ => cases he
  · exact fun he => ⟨_, he, rfl⟩

namespace Session.Story
variable {s t : Session} {events : List Event} {acc more : List (String × ClientId)}
variable {client : ClientId} {hook : Hook} {cs : List Call}
variable {r : Option (Except GatewayError (List Grant))}

theorem fresh (h : s.Story events acc) (hs : s.phase = .fresh) :
    s.client = none ∧ events = [] ∧ acc = [] := by
  cases h with
  | stranger _ hc => exact ⟨hc, rfl, rfl⟩
  | known hs' => simp [hs] at hs'
  | working hs' => simp [connected?, hs] at hs'
  | ended hs' => simp [hs] at hs'

theorem connecting (h : s.Story events acc) (hs : s.phase = .connecting)
    (hc : s.client = some client) : events = [] ∧ acc = [(s.secret, client)] := by
  cases h with
  | stranger hs' => simp [hs] at hs'
  | known _ hc' =>
    cases hc.symm.trans hc'
    exact ⟨rfl, rfl⟩
  | working hs' => simp [connected?, hs] at hs'
  | ended hs' => simp [hs] at hs'

theorem connected (h : s.Story events acc) (hs : s.connected? = some client) :
    Told client events ∧ acc = [(s.secret, client)] := by
  have hphase := (connected?_eq_some_iff.1 hs).1
  cases h with
  | stranger hs' => simp [hphase] at hs'
  | known hs' => simp [hphase] at hs'
  | working hs' he =>
    cases hs.symm.trans hs'
    exact ⟨he, rfl⟩
  | ended hs' => simp [hphase] at hs'

theorem unknown (h : s.Story events acc) (hs : s.phase = .fresh ∨ s.phase = .rejected) :
    s.client = none := by
  cases h with
  | stranger _ hc => exact hc
  | known hs' => rcases hs with hs | hs <;> simp [hs] at hs'
  | working hs' => rcases hs with hs | hs <;> simp [connected?, hs] at hs'
  | ended hs' => rcases hs with hs | hs <;> simp [hs] at hs'

theorem belongs (h : s.Story events acc) (hs : s.phase = .connecting ∨ s.phase = .connected) :
    ∃ client, s.client = some client ∧ acc = [(s.secret, client)] := by
  cases h with
  | stranger hs' => rcases hs with hs | hs <;> simp [hs] at hs'
  | known _ hc => exact ⟨_, hc, rfl⟩
  | working hs' => exact ⟨_, (connected?_eq_some_iff.1 hs').2, rfl⟩
  | ended _ hc => exact ⟨_, hc, rfl⟩

theorem owned (h : s.Story events acc) : s.Owned := fun hs =>
  (h.belongs hs).imp fun _ hc => hc.1

theorem word (h : s.Story events acc) :
    events = [] ∨ ∃ changes last, events.map (·.operation) = .connect :: changes ++ last ∧
      (∀ o ∈ changes, o = .subscribe ∨ o = .unsubscribe) ∧ (last = [] ∨ last = [.disconnect]) := by
  cases h with
  | stranger | known => exact .inl rfl
  | working _ he =>
    obtain ⟨changes, heq, hall⟩ := he.operations
    exact .inr ⟨changes, [], by simpa using heq, hall, .inl rfl⟩
  | ended _ _ he ho =>
    obtain ⟨changes, heq, hall⟩ := he.operations
    exact .inr ⟨changes, [.disconnect], by simp [heq, ho], hall, .inr rfl⟩

theorem carried (h : s.Story events acc) : ∀ e ∈ events, s.client = some e.client := by
  intro e hmem
  cases h with
  | stranger | known => cases hmem
  | working hs he => rw [he.client e hmem, (connected?_eq_some_iff.1 hs).2]
  | ended _ hc he _ hlast =>
    rcases List.mem_append.1 hmem with hmem | hmem
    · rw [hc, he.client e hmem]
    · rw [hc, List.mem_singleton.1 hmem, hlast]

theorem stride (h : s.Story events acc) (hs : hook.Stride s cs more r t) :
    t.Story (events ++ eventsOf cs) (acc ++ more) := by
  cases hs with
  | refuse | ended =>
    rw [List.append_nil, eventsOf, List.filterMap_nil, List.append_nil]
    exact h
  | enquire hfresh secret =>
    obtain ⟨hc, rfl, rfl⟩ := h.fresh hfresh
    exact .stranger (.inl hfresh) hc
  | reject hfresh secret hcs =>
    obtain ⟨hc, rfl, rfl⟩ := h.fresh hfresh
    have hnone : eventsOf cs = [] := by
      rcases hcs with rfl | rfl
      · rfl
      · rfl
    rw [hnone]
    exact .stranger (.inr (.inl rfl)) hc
  | accept hfresh secret client =>
    obtain ⟨-, rfl, rfl⟩ := h.fresh hfresh
    exact .known (.inl rfl) rfl
  | @connect hconnecting client hc st m =>
    obtain ⟨rfl, rfl⟩ := h.connecting hconnecting hc
    have htold : Told client [.ofSession .connect client s.protocol st.instanceName m] :=
      .start rfl rfl
    exact .working (s := { s with phase := .connected, connectedAt := some m })
      (connected?_eq_some_iff.2 ⟨rfl, hc⟩) htold
  | work hconnected _ _ hcs =>
    obtain ⟨htold, rfl⟩ := h.connected hconnected
    refine .working hconnected (htold.change fun e he => ?_)
    exact (hcs _ (mem_eventsOf.1 he)).record e rfl
  | leave hs =>
    rcases hs with hfresh | hconnecting
    · obtain ⟨hc, rfl, rfl⟩ := h.fresh hfresh
      exact .stranger (.inr (.inr rfl)) hc
    · obtain ⟨client, hc⟩ := h.owned (.inl hconnecting)
      obtain ⟨rfl, rfl⟩ := h.connecting hconnecting hc
      exact .known (.inr rfl) hc
  | @close client hconnected st m =>
    obtain ⟨htold, rfl⟩ := h.connected hconnected
    let last : Event := .ofSession .disconnect client s.protocol st.instanceName m
    have hlast : last.operation = .disconnect ∧ last.client = client := ⟨rfl, rfl⟩
    exact .ended (s := { s with phase := .disconnected }) rfl
      (connected?_eq_some_iff.1 hconnected).2 htold hlast.1 hlast.2

end Session.Story

/-- What one turn does to the session, and when it is refused. -/
structure Turn.Lawful (t : Turn) : Prop where
  moves : t.before.phase.Moves t.after.phase
  leads : ∀ r, t.result = some r → t.after.phase = t.hook.leads t.before.phase r.toBool
  client : ∀ client, t.before.client = some client → t.after.client = some client
  refused : t.hook.isAllowed t.before.phase = false →
    t.calls = [] ∧ t.result = some (.error .notConnected) ∧ t.after = t.before

theorem Hook.Stride.lawful {hook : Hook} {s t : Session} {d : Dealings} {asked : Option Call}
    {r : Option (Except GatewayError (List Grant))} {cs : List Call}
    {more : List (String × ClientId)} (h : hook.Stride s cs more r t)
    (hcs : d.calls ++ asked.toList = cs) (hfresh : s.phase = .fresh → s.client = none) :
    (Turn.mk hook s d asked t r).Lawful := by
  cases h with
  | refuse hrefused =>
    refine ⟨.stay _, fun r hr => ?_, fun _ hc => hc, fun _ => ⟨hcs, rfl, rfl⟩⟩
    cases hr
    cases hook <;> simp_all [Hook.leads, Hook.isAllowed]
  | enquire hs secret =>
    exact ⟨.stay _, nofun, fun _ hc => hc, by simp [Hook.isAllowed, hs]⟩
  | reject hs secret hcs e =>
    refine ⟨hs ▸ .reject, fun r hr => ?_, fun _ hc => hc, by simp [Hook.isAllowed, hs]⟩
    cases hr
    simp [Hook.leads, hs, Except.toBool]
  | accept hs secret client =>
    refine ⟨hs ▸ .authenticate, fun r hr => ?_, ?_, by simp [Hook.isAllowed, hs]⟩
    · cases hr
      simp [Hook.leads, hs, Except.toBool]
    · simp [hfresh hs]
  | connect hs hc st m hr =>
    refine ⟨hs ▸ .connect, fun r heq => ?_, fun _ hc => hc, by simp [Hook.isAllowed, hs]⟩
    rcases hr with rfl | rfl
    · cases heq
    · simp [Hook.leads, hs]
  | work hs hwork hne hcs r =>
    have hphase := (Session.connected?_eq_some_iff.1 hs).1
    refine ⟨.stay _, fun r _ => ?_, fun _ hc => hc, by simp [hphase, hwork]⟩
    cases hook <;> simp_all [Hook.leads, Hook.isAllowed]
  | ended hs =>
    refine ⟨.stay _, fun r _ => ?_, fun _ hc => hc, nofun⟩
    rcases hs with hs | hs <;> simp [Hook.leads, hs]
  | leave hs =>
    have hp : s.phase ≠ .rejected := by rcases hs with hs | hs <;> simp [hs]
    refine ⟨.disconnect ?_, fun r _ => by simp [Hook.leads, hp], fun _ hc => hc, nofun⟩
    exact hs.imp_right .inl
  | close hs st m hr =>
    have hphase := (Session.connected?_eq_some_iff.1 hs).1
    exact ⟨.disconnect (.inr (.inr hphase)), fun r _ => by simp [Hook.leads, hphase],
      fun _ hc => hc, nofun⟩

namespace Life
variable {name : String} {protocol : Protocol} {turns : List Turn} {s : Session}

theorem story (hl : Life (.start name protocol) turns s) :
    s.Story (offered turns) (accepted turns) := by
  induction hl with
  | start => exact .stranger (.inl rfl) rfl
  | turn hl st m queue hook hc ih =>
    have hstride := Hook.stride ih.owned hc
    simpa [offered, accepted, Turn.calls] using ih.stride hstride

theorem lawful (hl : Life (.start name protocol) turns s) : ∀ t ∈ turns, t.Lawful := by
  induction hl with
  | start => simp
  | turn hl st m queue hook hc ih =>
    intro t ht
    rcases List.mem_append.1 ht with ht | ht
    · exact ih t ht
    · rw [List.mem_singleton.1 ht]
      exact (Hook.stride hl.story.owned hc).lawful rfl fun hs => (hl.story.fresh hs).1

/-- A session goes through its phases in order, whatever its hooks are called with and whatever
they hear. It belongs to nobody until one secret was accepted, to the client that it was accepted
for from then on, and the events recorded for it are its connect, its changes and its disconnect. -/
theorem hooks_follow_phases (hl : Life (.start name protocol) turns s) :
    (∀ t ∈ turns, t.Lawful) ∧
    (s.phase = .fresh ∨ s.phase = .rejected → s.client = none) ∧
    (s.phase = .connecting ∨ s.phase = .connected →
      ∃ client, s.client = some client ∧ accepted turns = [(s.secret, client)]) ∧
    (offered turns = [] ∨ ∃ changes last,
      (offered turns).map (·.operation) = .connect :: changes ++ last ∧
      (∀ o ∈ changes, o = .subscribe ∨ o = .unsubscribe) ∧ (last = [] ∨ last = [.disconnect])) ∧
    ∀ e ∈ offered turns, s.client = some e.client := by
  have hstory := hl.story
  exact ⟨hl.lawful, hstory.unknown, hstory.belongs, hstory.word, hstory.carried⟩

theorem hooks_follow_phases_of_visit : ∃ (turns : List Turn) (s : Session),
    Life (.start "1" .ws) turns s ∧ (∀ t ∈ turns, t.Lawful) ∧ s.phase = .disconnected ∧
    s.client = some ⟨"a"⟩ ∧
    (offered turns).map (·.operation) = [.connect, .disconnect] ∧
    ∀ e ∈ offered turns, s.client = some e.client := by
  have early := Life.start.turn {} (fun _ => ⟨0, 0⟩) 0 (.authPublish "channels/c/messages")
    (s := .start "1" .ws) (.finished (.here _))
  have welcomed := early.turn {} (fun _ => ⟨0, 0⟩) 0 (.authConnect "key")
    (.finished (.answer (.ok ⟨"a"⟩) (.here _)))
  have begun := welcomed.turn {} (fun _ => ⟨0, 0⟩) 0 .connect
    (.finished (.answer (.error .unwritable) (.here _)))
  have left := begun.turn {} (fun _ => ⟨0, 0⟩) 0 .disconnect (.givenUp (.answer 0 (.here _)) rfl)
  obtain ⟨hlawful, -, -, -, hcarried⟩ := hooks_follow_phases left
  exact ⟨_, _, left, hlawful, rfl, rfl, rfl, hcarried⟩

end Life

end DeviceGateway
