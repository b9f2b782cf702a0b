import DeviceGateway.Proofs.Gateway.Registry

/-!
# The registrations reflect the operations

What a session has registered are the filters on which its last hook that succeeded was a subscribe,
as long as it is connected. What a client observes is, for each token, what it observed last and has
not cancelled since. Nobody touches what belongs to another.
-/

namespace DeviceGateway

namespace Turn

def Succeeded (t : Turn) : Prop := ∃ gs, t.result = some (.ok gs)

def Adds (filter : String) (t : Turn) : Prop := t.Succeeded ∧ filter ∈ t.hook.added

def Drops (filter : String) (t : Turn) : Prop :=
  t.Succeeded ∧ t.hook.Removes filter t.before.phase

variable {t : Turn} {queue q : QueueId} {token filter : String}

theorem Settled.outcome (h : t.Settled queue) (hr : t.result ≠ none) :
    t.Succeeded ∧ changesIn t.dealings = t.hook.changes t.before queue ∨
      ¬t.Succeeded ∧ changesIn t.dealings = [] := by
  rcases hresult : t.result with _ | e | gs
  · exact absurd hresult hr
  · refine .inr ⟨?_, h.error e hresult⟩
    rintro ⟨gs, hgs⟩
    rw [hresult] at hgs
    cases hgs
  · exact .inl ⟨⟨gs, hresult⟩, h.ok gs hresult⟩

theorem Settled.lasts_iff {drops : Call → Prop} (h : t.Settled queue) (hr : t.result ≠ none) :
    Lasts (fun c => ∃ q, c.Makes ⟨t.before.owner, token, filter, q⟩) drops
      (changesIn t.dealings) ↔ token = filter ∧ t.Adds filter := by
  rcases h.outcome hr with ⟨hs, heq⟩ | ⟨hs, hnone⟩
  · rw [heq, Hook.lasts_changes, Adds]
    exact and_congr_right fun _ => (and_iff_right hs).symm
  · rw [hnone]
    exact iff_of_false not_lasts_nil fun ha => hs ha.2.1

theorem Settled.drops_iff (h : t.Settled queue) (hr : t.result ≠ none) (ha : ¬t.Adds filter) :
    (∃ c ∈ changesIn t.dealings, c.Drops ⟨t.before.owner, filter, filter, q⟩) ↔
      t.Drops filter := by
  rcases h.outcome hr with ⟨hs, heq⟩ | ⟨hs, hnone⟩
  · rw [heq, Hook.exists_drops_changes fun hf => ha ⟨hs, hf⟩]
    exact (and_iff_right hs).symm
  · rw [hnone]
    exact iff_of_false (by simp) fun hd => hs hd.1

end Turn

namespace Observed

def Succeeded (o : Observed) : Prop := o.result = some (.ok ())

def IsOn (filter : String) (o : Observed) : Prop :=
  ∃ channel, Topic.parseFilter o.what.topic = .ok channel ∧ Topic.edgeFilter channel = filter

def Adds (d : ClientId) (token filter : String) (queue : QueueId) (o : Observed) : Prop :=
  o.Succeeded ∧ o.what.IsBy o.heard d ∧ o.what.token = token ∧ o.what.queue? = some queue ∧
    o.IsOn filter

def Drops (d : ClientId) (token filter : String) (o : Observed) : Prop :=
  o.Succeeded ∧ o.what.IsBy o.heard d ∧ o.what.token = token ∧
    (o.what.action = .subscribe ∨ o.IsOn filter)

variable {o : Observed} {d client : ClientId} {channel : Channel} {token filter : String}
variable {queue : QueueId} {h : Dealings}

theorem isBy_iff (hby : o.what.IsBy h client) : o.what.IsBy h d ↔ client = d := by
  rw [Observation.IsBy, hby]
  simp

theorem isOn_iff (hc : Topic.parseFilter o.what.topic = .ok channel) :
    o.IsOn filter ↔ Topic.edgeFilter channel = filter := by
  simp [IsOn, hc]

theorem not_succeeded {why : GatewayError} (hr : o.result = some (.error why)) :
    ¬o.Succeeded := by
  simp [Succeeded, hr]

theorem lasts_iff {drops : Call → Prop}
    (ha : ∀ r, o.result = some r → o.what.Achieves o.heard r) (hr : o.result ≠ none) :
    Lasts (Call.Makes ⟨Observe.owner d, token, filter, queue⟩) drops (changesIn o.heard) ↔
      o.Adds d token filter queue := by
  rcases hresult : o.result with _ | why | ⟨⟩
  · exact absurd hresult hr
  · rw [(ha _ hresult).error why rfl]
    exact iff_of_false not_lasts_nil fun h => not_succeeded hresult h.1
  · obtain ⟨c, hone, client, channel, hby, hparse, -, rfl⟩ := (ha _ hresult).ok rfl
    rw [hone, lasts_singleton, Observation.makes_change_iff, Adds, isBy_iff hby, isOn_iff hparse]
    exact (and_iff_right hresult).symm

theorem drops_iff (ha : ∀ r, o.result = some r → o.what.Achieves o.heard r)
    (hr : o.result ≠ none) :
    (∃ c ∈ changesIn o.heard, c.Drops ⟨Observe.owner d, token, filter, queue⟩) ↔
      o.Drops d token filter := by
  rcases hresult : o.result with _ | why | ⟨⟩
  · exact absurd hresult hr
  · rw [(ha _ hresult).error why rfl]
    exact iff_of_false (by simp) fun h => not_succeeded hresult h.1
  · obtain ⟨c, hone, client, channel, hby, hparse, -, rfl⟩ := (ha _ hresult).ok rfl
    rw [hone, Drops, isBy_iff hby, isOn_iff hparse]
    simp only [List.mem_singleton, exists_eq_left, Observation.drops_change_iff]
    exact (and_iff_right hresult).symm

end Observed

inductive SessionState.Rests (state : SessionState) : Session → Prop
  | idle (hidle : state.doing = none) : Rests state state.session
  | waiting {d : Doing} (hd : state.doing = some d) {s : Session} {c : Call}
      {f : c.Reply → Work Session (Session × Except GatewayError (List Grant))}
      (hw : d.work = .call s c f) (hc : c.isAwaited = true) : Rests state s

namespace Registry

section
variable {ι : Type} {ms : List (Move ι)} {m : Move ι} {p : Party ι} {s t : Services} {c : Call}

structure Ledger (ms : List (Move ι)) (s : Services) : Prop where
  keyed : s.broker.Keyed
  isOpen : ∀ r ∈ s.broker.registrations, s.queues.IsOpen r.queue
  stands : ∀ r, r ∈ s.broker.registrations ↔
    Lasts (Call.Makes r) (Call.Drops r) (changes (fun _ => true) ms)

namespace Ledger

theorem quiet (h : Ledger ms s) (hregistrations : t.broker.registrations = s.broker.registrations)
    (hopen : ∀ id, s.queues.IsOpen id → t.queues.IsOpen id)
    (hm : m.change? (fun _ => true) = none) : Ledger (ms ++ [m]) t := by
  refine ⟨?_, fun r hr => ?_, fun r => ?_⟩
  · rw [Broker.Keyed, hregistrations]
    exact h.keyed
  · rw [hregistrations] at hr
    exact hopen _ (h.isOpen r hr)
  · rw [hregistrations, changes_concat, hm, h.stands]
    simp

theorem hear (h : Ledger ms s) {x : c.Reply} (ht : s.Answers c x t)
    (hc : c.isAwaited = false →
      ∃ owner P, c.Claims owner P ∧ ∀ q, P q → s.queues.IsOpen q) :
    Ledger (ms ++ [.hear p c x]) t := by
  have hmem : ∀ r, r ∈ t.broker.registrations ↔
      c.Makes r ∨ r ∈ s.broker.registrations ∧ ¬c.Drops r := by
    refine fun r => ht.mem_iff h.keyed fun o entries queue heq => ?_
    obtain ⟨owner, P, hclaims, -⟩ := hc (heq ▸ rfl)
    exact (hclaims.register o entries queue heq).2
  refine ⟨ht.keyed h.keyed, fun r hr => ?_, fun r => ?_⟩
  · rw [ht.queues]
    rcases (hmem r).1 hr with hmakes | ⟨hr, -⟩
    · have hatOnce : c.isAwaited = false := by
        rw [← Bool.not_eq_true]
        exact fun hawaited => (Call.not_makes_or_drops_of_isAwaited hawaited).1 hmakes
      obtain ⟨owner, P, hclaims, hP⟩ := hc hatOnce
      exact hP _ (hclaims.queue hmakes)
    · exact h.isOpen r hr
  · rw [hmem, h.stands, changes_concat, change?_hear rfl]
    cases hawaited : c.isAwaited with
    | true =>
      obtain ⟨hmakes, hdrops⟩ := Call.not_makes_or_drops_of_isAwaited (r := r) hawaited
      simp [hmakes, hdrops]
    | false => simp [lasts_concat]

end Ledger

end

section
variable {ι : Type} [DecidableEq ι]
variable {w v w₀ : Registry ι} {ms : List (Move ι)} {m : Move ι} {name : ι → String} {k : ι}
variable {n : Nat} {r : Registration} {d : ClientId}

structure Sound (name : ι → String) (ms : List (Move ι)) (w : Registry ι) : Prop where
  ledger : Ledger ms w.services
  unfound : ∀ n, w.found n = []
  states : ∀ k, Keeps ms k ("session:" ++ name k) (w.states k)
  watches : ∀ n, Minds ms n (w.watches n)
  handed : ∀ k d, (w.states k).doing = some d → w.services.queues.IsOpen (w.states k).queue
  listening : ∀ n o, w.watches n = some o → ∀ q ∈ o.what.queue?, w.services.queues.IsOpen q

theorem Begins.sound (h : Begins name w) : Sound name [] w where
  ledger := by
    refine ⟨?_, ?_, fun r => ?_⟩
    · simp [Broker.Keyed, h.registrations]
    · simp [h.registrations]
    · rw [h.registrations]
      exact iff_of_false (by simp) not_lasts_nil
  unfound := h.unfound
  states k := by
    obtain ⟨protocol, hfresh⟩ := h.fresh k
    refine ⟨by rw [hfresh]; rfl, ?_, by simp [changes], ?_, by simp [turns], fun _ r => ?_⟩
    · rw [h.idle k]
      rfl
    · intro d hd
      rw [h.idle k] at hd
      cases hd
    · exact not_lasts_nil
  watches n := by
    rw [h.unwatched n]
    exact ⟨rfl, by simp [changes], by simp, by simp [observed]⟩
  handed k d hd := by
    rw [h.idle k] at hd
    cases hd
  listening n o ho := by
    rw [h.unwatched n] at ho
    cases ho

namespace Sound

theorem gone_eq_nil (h : Sound name ms w) (topic : String) (message : Message) :
    (w.services.broker.fanOut topic message w.services.queues).gone = [] := by
  rw [List.eq_nil_iff_forall_not_mem]
  intro key hkey
  rcases Broker.mem_gone_of_foldl_offer hkey with hnone | ⟨r, hr, -, hshut⟩
  · cases hnone
  · exact hshut (h.ledger.isOpen r hr)

theorem state_claims (h : Sound name ms w) {e : Doing} (he : (w.states k).doing = some e)
    {s : Session} {c : Call}
    {f : c.Reply → Work Session (Session × Except GatewayError (List Grant))}
    (hw : e.work = .call s c f) (hc : c.isAwaited = false) :
    ∃ owner P, c.Claims owner P ∧ ∀ q, P q → w.services.queues.IsOpen q := by
  refine ⟨_, _, (h.states k).claims he hw hc, ?_⟩
  rintro _ rfl
  exact h.handed k e he

theorem means (h : Sound name ms w) {o : Watch} (ho : w.watches n = some o) {c : Call}
    {f : c.Reply → Attempt Unit Unit} (hw : o.work = .call () c f) (hc : c.isAwaited = false) :
    o.what.Means o.heard c := by
  have hminds := h.watches n
  rw [ho] at hminds
  exact hminds.means hw hc

theorem watch_claims (h : Sound name ms w) {o : Watch} (ho : w.watches n = some o) {c : Call}
    {f : c.Reply → Attempt Unit Unit} (hw : o.work = .call () c f) (hc : c.isAwaited = false) :
    ∃ owner P, c.Claims owner P ∧ ∀ q, P q → w.services.queues.IsOpen q := by
  obtain ⟨client, channel, -, -, -, rfl⟩ := h.means ho hw hc
  exact ⟨_, _, o.what.claims_change client channel, fun q hq => h.listening n o ho q hq⟩

theorem ledger_step (h : Sound name ms w) (hs : w.Step m v) : Ledger (ms ++ [m]) v.services := by
  have hopen : ∀ id, w.services.queues.IsOpen id → v.services.queues.IsOpen id := fun _ => hs.isOpen
  cases hs with
  | hear k hd hw ht => exact h.ledger.hear ht (h.state_claims hd hw)
  | learn n ho hw ht => exact h.ledger.hear ht (h.watch_claims ho hw)
  | prune n =>
    refine h.ledger.quiet ?_ hopen rfl
    simp [Broker.prune, h.unfound n]
  | elsewhere hbroker _ => exact h.ledger.quiet (congrArg _ hbroker) hopen rfl
  | _ => exact h.ledger.quiet rfl hopen rfl

theorem unfound_step (h : Sound name ms w) (hs : w.Step m v) (n : Nat) : v.found n = [] := by
  have hupdate : ∀ j, Function.update w.found j [] n = [] := by
    intro j
    rw [Function.update_apply]
    split
    · rfl
    · exact h.unfound n
  cases hs with
  | fanOut j topic message hj =>
    simp only [h.gone_eq_nil]
    exact hupdate j
  | prune j => exact hupdate j
  | _ => exact h.unfound n

theorem states_step (h : Sound name ms w) (hs : w.Step m v) (k : ι) :
    Keeps (ms ++ [m]) k ("session:" ++ name k) (v.states k) := by
  by_cases hm : m.party? = some (.session k)
  · cases hs with
    | start j hook moment queue hidle hq =>
      cases hm
      simp only [Function.update_self]
      exact (h.states k).start hidle hook _ moment queue
    | hear j hd hw ht =>
      cases hm
      simp only [Function.update_self]
      exact (h.states k).hear hd hw _
    | finish j hd hw =>
      cases hm
      have hachieves := (h.states k).doing _ hd
      rw [hw] at hachieves
      simp only [Function.update_self]
      refine (h.states k).leave hd rfl rfl (w.states k).queue ⟨?_, ?_⟩ hachieves.left
      · exact fun gs hr => hachieves.ok gs (Option.some.inj hr)
      · exact fun e hr => hachieves.error e (Option.some.inj hr)
    | giveUp j hd hw hc =>
      cases hm
      have hheeds := (h.states k).doing _ hd
      rw [hw] at hheeds
      simp only [Function.update_self]
      exact (h.states k).leave hd rfl rfl 0 ⟨by simp, by simp⟩ (hheeds.1.left hc)
    | _ => cases hm
  · rw [hs.state_of_party? hm]
    exact (h.states k).frame hm

theorem watches_step (h : Sound name ms w) (hs : w.Step m v) (n : Nat) :
    Minds (ms ++ [m]) n (v.watches n) := by
  have hminds := h.watches n
  by_cases hm : m.party? = some (.observer n)
  · cases hs with
    | watch j what moment hfree hq =>
      cases hm
      rw [hfree] at hminds
      simp only [Function.update_self]
      exact hminds.start what _ moment
    | learn j ho hw ht =>
      cases hm
      rw [ho] at hminds
      simp only [Function.update_self]
      exact hminds.learn hw _
    | conclude j ho hw =>
      cases hm
      rw [ho] at hminds
      have hachieves := hminds.doing _ rfl
      rw [hw] at hachieves
      simp only [Function.update_self]
      refine hminds.conclude fun x hx => ?_
      cases hx
      exact hachieves
    | abandon j ho hw hc =>
      cases hm
      rw [ho] at hminds
      simp only [Function.update_self]
      exact hminds.conclude (by simp)
    | _ => cases hm
  · rw [hs.watch_of_party? hm]
    exact hminds.frame hm

theorem handed_step (h : Sound name ms w) (hs : w.Step m v) (k : ι) (d : Doing)
    (hd : (v.states k).doing = some d) : v.services.queues.IsOpen (v.states k).queue := by
  have hopen : ∀ id, w.services.queues.IsOpen id → v.services.queues.IsOpen id := fun _ => hs.isOpen
  by_cases hm : m.party? = some (.session k)
  · cases hs with
    | start j hook moment queue hidle hq =>
      cases hm
      simpa only [Function.update_self] using hq
    | hear j he hw ht =>
      cases hm
      simp only [Function.update_self]
      exact hopen _ (h.handed k _ he)
    | finish | giveUp =>
      cases hm
      simp at hd
    | _ => cases hm
  · rw [hs.state_of_party? hm] at hd ⊢
    exact hopen _ (h.handed k d hd)

theorem listening_step (h : Sound name ms w) (hs : w.Step m v) (n : Nat) (o : Watch)
    (ho : v.watches n = some o) : ∀ q ∈ o.what.queue?, v.services.queues.IsOpen q := by
  have hopen : ∀ id, w.services.queues.IsOpen id → v.services.queues.IsOpen id := fun _ => hs.isOpen
  intro q hq
  refine hopen q ?_
  by_cases hm : m.party? = some (.observer n)
  · cases hs with
    | watch j what moment hfree hqueue =>
      cases hm
      simp only [Function.update_self, Option.some.injEq] at ho
      subst ho
      exact hqueue q hq
    | learn j he hw ht =>
      cases hm
      simp only [Function.update_self, Option.some.injEq] at ho
      subst ho
      exact h.listening n _ he q hq
    | conclude | abandon =>
      cases hm
      simp at ho
    | _ => cases hm
  · rw [hs.watch_of_party? hm] at ho
    exact h.listening n o ho q hq

theorem step (h : Sound name ms w) (hs : w.Step m v) : Sound name (ms ++ [m]) v :=
  ⟨h.ledger_step hs, h.unfound_step hs, h.states_step hs, h.watches_step hs, h.handed_step hs,
    h.listening_step hs⟩

end Sound

theorem Run.sound (hr : Run w₀ ms w) (h : Begins name w₀) : Sound name ms w := by
  induction hr with
  | start => exact h.sound
  | step _ hs ih => exact ih.step hs

def ActsFor (w : Registry ι) (d : ClientId) (m : Move ι) : Prop :=
  ∃ n o c x, m = .hear (.observer n) c x ∧ w.watches n = some o ∧ o.what.IsBy o.heard d

theorem Keeps.lasts_iff {owner token filter : String} {state : SessionState}
    (h : Keeps ms k owner state)
    (hidle : state.doing = none) (hall : ∀ t ∈ turns k ms, t.result ≠ none) :
    (∃ q, Lasts (Call.Makes ⟨owner, token, filter, q⟩) (Call.Drops ⟨owner, token, filter, q⟩)
      (changes (· = .session k) ms)) ↔
      token = filter ∧ Lasts (Turn.Adds filter) (Turn.Drops filter) (turns k ms) := by
  -- What a call drops does not depend on the queue.
  change (∃ q, Lasts (Call.Makes ⟨owner, token, filter, q⟩)
    (Call.Drops ⟨owner, token, filter, 0⟩) _) ↔ _
  have htold : changes (· = .session k) ms =
      (turns k ms).flatMap fun t => changesIn t.dealings := by
    rw [h.told, hidle]
    exact List.append_nil _
  have hmakes : ∀ t ∈ turns k ms, Lasts (fun c => ∃ q, c.Makes ⟨owner, token, filter, q⟩)
      (Call.Drops ⟨owner, token, filter, 0⟩) (changesIn t.dealings) ↔
        token = filter ∧ t.Adds filter := by
    intro t ht
    obtain ⟨howner, queue, hsettled⟩ := h.settled t ht
    rw [← howner]
    exact hsettled.lasts_iff (hall t ht)
  rw [lasts_exists, htold, lasts_flatMap]
  by_cases htoken : token = filter
  · subst htoken
    rw [eq_self, true_and]
    refine lasts_congr (fun t ht => (hmakes t ht).trans (and_iff_right rfl)) fun t ht hn => ?_
    obtain ⟨howner, queue, hsettled⟩ := h.settled t ht
    rw [← howner]
    exact hsettled.drops_iff (hall t ht) fun ha => hn ((hmakes t ht).2 ⟨rfl, ha⟩)
  · exact iff_of_false (not_lasts fun t ht hm => htoken ((hmakes t ht).1 hm).1)
      fun hm => htoken hm.1

theorem Minds.lasts_iff {token filter : String} {queue : QueueId} (h : Minds ms n none)
    (hall : ∀ o ∈ observed n ms, o.result ≠ none) :
    Lasts (Call.Makes ⟨Observe.owner d, token, filter, queue⟩)
        (Call.Drops ⟨Observe.owner d, token, filter, queue⟩) (changes (· = .observer n) ms) ↔
      Lasts (Observed.Adds d token filter queue) (Observed.Drops d token filter)
        (observed n ms) := by
  have htold : changes (· = .observer n) ms =
      (observed n ms).flatMap fun o => changesIn o.heard := by
    rw [h.told]
    exact List.append_nil _
  rw [htold, lasts_flatMap]
  exact lasts_congr (fun o ho => Observed.lasts_iff (h.achieved o ho) (hall o ho))
    fun o ho _ => Observed.drops_iff (h.achieved o ho) (hall o ho)

namespace Sound

theorem owner_of_session (h : Sound name ms w) {c : Call} {x : c.Reply}
    (hmem : .hear (.session k) c x ∈ ms) (hc : c.isAwaited = false) :
    c.owner? = some ("session:" ++ name k) :=
  (h.states k).owned c (mem_changes.2 ⟨_, x, hmem, decide_eq_true rfl, hc⟩)

theorem ne_owner_of_session (h : Sound name ms w) (hname : name.Injective) {j : ι} {c : Call}
    {x : c.Reply} (hmem : .hear (.session j) c x ∈ ms) (hc : c.isAwaited = false) (hjk : j ≠ k) :
    c.owner? ≠ some ("session:" ++ name k) := by
  rw [h.owner_of_session hmem hc]
  intro hsame
  have hnames : name j = name k :=
    Session.start_owner_inj (p := .mqtt) (q := .mqtt) (Option.some.inj hsame)
  exact hjk (hname hnames)

theorem owner_of_observer (h : Sound name ms w) {c : Call} {x : c.Reply}
    (hmem : .hear (.observer n) c x ∈ ms) (hc : c.isAwaited = false) :
    ∃ client, c.owner? = some (Observe.owner client) := by
  obtain ⟨what, client, channel, rfl⟩ :=
    (h.watches n).meant c (mem_changes.2 ⟨_, x, hmem, decide_eq_true rfl, hc⟩)
  exact ⟨client, (what.claims_change client channel).owner⟩

theorem ne_owner_of_observer (h : Sound name ms w) {c : Call} {x : c.Reply}
    (hmem : .hear (.observer n) c x ∈ ms) (hc : c.isAwaited = false) (k : ι) :
    c.owner? ≠ some ("session:" ++ name k) := by
  obtain ⟨client, howner⟩ := h.owner_of_observer hmem hc
  rw [howner]
  exact fun hsame => Observe.owner_ne_session client (name k) (Option.some.inj hsame)

theorem session_iff (h : Sound name ms w) (hname : name.Injective)
    (hr : r.owner = "session:" ++ name k) : r ∈ w.services.broker.registrations ↔
      Lasts (Call.Makes r) (Call.Drops r) (changes (· = .session k) ms) := by
  refine (h.ledger.stands r).trans (lasts_changes fun p c x hmem hc hp => ?_)
  rw [hr]
  cases p with
  | session j => exact h.ne_owner_of_session hname hmem hc fun hjk => by simp [hjk] at hp
  | observer n => exact h.ne_owner_of_observer hmem hc k

theorem client_iff (h : Sound name ms w) (hr : r.owner = Observe.owner d)
    {q : Party ι → Bool} (hq : ∀ n c x, .hear (.observer n) c x ∈ ms →
      c.owner? = some (Observe.owner d) → q (.observer n) = true) :
    r ∈ w.services.broker.registrations ↔
      Lasts (Call.Makes r) (Call.Drops r) (changes q ms) := by
  refine (h.ledger.stands r).trans (lasts_changes fun p c x hmem hc hp => ?_)
  rw [hr]
  cases p with
  | session k =>
    rw [h.owner_of_session hmem hc]
    exact fun hsame => Observe.owner_ne_session d (name k) (Option.some.inj hsame).symm
  | observer n =>
    intro hsame
    rw [hq n c x hmem hsame] at hp
    cases hp

theorem mem_step_iff (h : Sound name ms w) (hs : w.Step m v)
    (hother : ∀ p c x, m = .hear p c x → c.isAwaited = false → c.owner? ≠ some r.owner) :
    r ∈ v.services.broker.registrations ↔ r ∈ w.services.broker.registrations := by
  rw [(h.step hs).ledger.stands, h.ledger.stands, changes_concat]
  cases hm : m.change? (fun _ => true) with
  | none => simp
  | some c =>
    obtain ⟨p, x, heq, -, hc⟩ := change?_eq_some_iff.1 hm
    obtain ⟨hmakes, hdrops⟩ := Call.not_makes_or_drops (hother p c x heq hc)
    rw [Option.toList_some, lasts_concat]
    simp [hmakes, hdrops]

theorem owner_ne_of_idle (h : Sound name ms w) (hname : name.Injective)
    (hidle : (w.states k).doing = none) (hs : (w.states k).session.phase ≠ .connected)
    (hr : r ∈ w.services.broker.registrations) : r.owner ≠ "session:" ++ name k := by
  intro howner
  have hlasts := (h.session_iff hname howner).1 hr
  rw [(h.states k).told, hidle] at hlasts
  exact (h.states k).parted hs r (by simpa using hlasts)

theorem owner_ne_of_rests (h : Sound name ms w) (hname : name.Injective) {s : Session}
    (hrests : (w.states k).Rests s) (hs : s.phase ≠ .connected)
    (hr : r ∈ w.services.broker.registrations) : r.owner ≠ "session:" ++ name k := by
  cases hrests with
  | idle hidle => exact h.owner_ne_of_idle hname hidle hs hr
  -- The hook can be given up where it waits, which leaves all that is registered.
  | waiting hd hw hc =>
    refine (h.step (.giveUp k hd hw hc)).owner_ne_of_idle hname ?_ ?_ hr
    · simp
    · simpa using hs

theorem session_kept (h : Sound name ms w) (hname : name.Injective) (hs : w.Step m v)
    (hr : r.owner = "session:" ++ name k) (hm : m.party? ≠ some (.session k)) :
    r ∈ v.services.broker.registrations ↔ r ∈ w.services.broker.registrations := by
  refine h.mem_step_iff hs fun p c x heq hc => ?_
  have hmem : .hear p c x ∈ ms ++ [m] := by simp [heq]
  rw [hr]
  cases p with
  | session j =>
    refine (h.step hs).ne_owner_of_session hname hmem hc fun hjk => hm ?_
    rw [heq, hjk]
    rfl
  | observer n => exact (h.step hs).ne_owner_of_observer hmem hc k

theorem client_kept (h : Sound name ms w) (hs : w.Step m v) (hr : r.owner = Observe.owner d)
    (hm : ¬w.ActsFor d m) :
    r ∈ v.services.broker.registrations ↔ r ∈ w.services.broker.registrations := by
  refine h.mem_step_iff hs fun p c x heq hc hsame => hm ?_
  rw [hr] at hsame
  cases hs with
  | hear k hd hw ht =>
    cases heq
    have howner := ((h.states k).claims hd hw hc).owner
    exact absurd (Option.some.inj (hsame.symm.trans howner)) (Observe.owner_ne_session d (name k))
  | @learn n o ho c f hw x t ht =>
    cases heq
    obtain ⟨client, channel, hby, -, -, rfl⟩ := h.means ho hw hc
    have howner := (o.what.claims_change client channel).owner
    obtain rfl := Observe.owner_inj.1 (Option.some.inj (howner.symm.trans hsame))
    exact ⟨n, _, _, _, rfl, ho, hby⟩
  | _ => cases heq

end Sound

/-- The registrations of `w` are what the moves `ms` have left. -/
structure Reflects (name : ι → String) (ms : List (Move ι)) (w : Registry ι) : Prop where
  /-- Between two hooks, none of which was given up, a session has the filters on which the last
  one that succeeded was a subscribe. -/
  filters : ∀ k, (w.states k).doing = none → (∀ t ∈ turns k ms, t.result ≠ none) →
    ∀ token filter,
      (∃ q, ⟨"session:" ++ name k, token, filter, q⟩ ∈ w.services.broker.registrations) ↔
        token = filter ∧ Lasts (Turn.Adds filter) (Turn.Drops filter) (turns k ms)
  connected : ∀ k s, (w.states k).Rests s → s.phase ≠ .connected →
    ∀ r ∈ w.services.broker.registrations, r.owner ≠ "session:" ++ name k
  /-- A client whose observations come one after the other, through `n`, has its tokens on what it
  observed last and has not cancelled. -/
  tokens : ∀ n d, w.watches n = none → (∀ o ∈ observed n ms, o.result ≠ none) →
    (∀ j c x, .hear (.observer j) c x ∈ ms → c.owner? = some (Observe.owner d) → j = n) →
    ∀ token filter queue,
      ⟨Observe.owner d, token, filter, queue⟩ ∈ w.services.broker.registrations ↔
        Lasts (Observed.Adds d token filter queue) (Observed.Drops d token filter) (observed n ms)
  session : ∀ k r, r.owner = "session:" ++ name k → (r ∈ w.services.broker.registrations ↔
    Lasts (Call.Makes r) (Call.Drops r) (changes (· = .session k) ms))
  client : ∀ d r, r.owner = Observe.owner d → (r ∈ w.services.broker.registrations ↔
    Lasts (Call.Makes r) (Call.Drops r) (changes Party.isObserver ms))
  changed : ∀ n, w.watches n = none → changes (· = .observer n) ms =
    (observed n ms).flatMap fun o => changesIn o.heard
  achieved : ∀ n, ∀ o ∈ observed n ms, ∀ r, o.result = some r → o.what.Achieves o.heard r
  single : w.services.broker.Keyed

/-- While every receiver is open, what is registered is what hooks and observations have left of it,
and no session and no client touches what belongs to another. -/
theorem registrations_follow_operations (h : Begins name w₀) (hr : Run w₀ ms w) :
    Reflects name ms w ∧ ∀ m v, w.Step m v → ∀ r,
      (∀ k, r.owner = "session:" ++ name k → m.party? ≠ some (.session k) →
        (r ∈ v.services.broker.registrations ↔ r ∈ w.services.broker.registrations)) ∧
      ∀ d, r.owner = Observe.owner d → ¬w.ActsFor d m →
        (r ∈ v.services.broker.registrations ↔ r ∈ w.services.broker.registrations) := by
  have hsound := hr.sound h
  refine ⟨⟨?_, ?_, ?_, ?_, ?_, ?_, ?_, hsound.ledger.keyed⟩, fun m v hs r => ⟨?_, ?_⟩⟩
  · intro k hidle hall token filter
    rw [← (hsound.states k).lasts_iff hidle hall]
    exact exists_congr fun q => hsound.session_iff h.injective rfl
  · intro k s hrests hs r
    exact hsound.owner_ne_of_rests h.injective hrests hs
  · intro n d hfree hall halone token filter queue
    have hminds := hsound.watches n
    rw [hfree] at hminds
    rw [← hminds.lasts_iff hall]
    refine hsound.client_iff rfl fun j c x hmem howner => ?_
    rw [halone j c x hmem howner]
    exact decide_eq_true rfl
  · exact fun k r howner => hsound.session_iff h.injective howner
  · intro d r howner
    exact hsound.client_iff howner fun _ _ _ _ _ => rfl
  · intro n hfree
    rw [(hsound.watches n).told, hfree]
    exact List.append_nil _
  · exact fun n => (hsound.watches n).achieved
  · exact fun k howner => hsound.session_kept h.injective hs howner
  · exact fun d howner => hsound.client_kept hs howner

theorem registrations_follow_operations_of_subscribe : ∃ (w₀ w : Registry Unit)
    (ms : List (Move Unit)), Begins (fun _ => "1") w₀ ∧ Run w₀ ms w ∧ Reflects (fun _ => "1") ms w ∧
    (∃ q, ⟨"session:1", "channels/c/messages", "channels/c/messages", q⟩ ∈
      w.services.broker.registrations) ∧
    ∀ m v, w.Step m v → m.party? ≠ some (.session ()) → ∀ r, r.owner = "session:1" →
      (r ∈ v.services.broker.registrations ↔ r ∈ w.services.broker.registrations) := by
  let services : Services :=
    { registrar := { store := ⟨[]⟩ }, policy := ⟨[]⟩, queues := [{ capacity := 1 }] }
  let w₀ : Registry Unit := {
    services := services
    states := fun _ => { session := .start "1" .mqtt, queue := 0 } }
  have hbegins : Begins (fun _ => "1") w₀ :=
    ⟨fun _ _ _ => rfl, fun _ => ⟨.mqtt, rfl⟩, fun _ => rfl, fun _ => rfl, fun _ => rfl, rfl⟩
  have hopen : services.queues.IsOpen 0 := ⟨_, rfl, rfl⟩
  let g : Grant := ⟨⟨⟨"c", by decide⟩, ""⟩, .subscribe⟩
  have idle : Run w₀ [] w₀ := .start
  have asked := idle.step (.start () (.authConnect "key") (fun _ => ⟨0, 0⟩) 0 rfl hopen)
  have known := asked.step (.hear () rfl rfl
    (services.answers_unchanged (c := .identify "key") rfl (.ok ⟨"a"⟩)))
  have accepted := known.step (.finish () rfl rfl)
  have begun := accepted.step (.start () .connect (fun _ => ⟨0, 0⟩) 0 rfl hopen)
  have recorded := begun.step (.hear () rfl rfl
    (services.answers_unchanged (c := .record _) rfl (.ok ())))
  have connected := recorded.step (.finish () rfl rfl)
  have wanted := connected.step (.start () (.subscribe [g]) (fun _ => ⟨0, 0⟩) 0 rfl hopen)
  have registered := wanted.step (.hear () rfl rfl (@Services.answers_of_answer _ _ 0 _ () rfl))
  have told := registered.step (.hear () rfl rfl
    (Services.answers_unchanged _ (c := .record _) rfl (.ok ())))
  have subscribed := told.step (.finish () rfl rfl)
  obtain ⟨hreflects, hkept⟩ := registrations_follow_operations hbegins subscribed
  refine ⟨w₀, _, _, hbegins, subscribed, hreflects, ?_, fun m v hs hm r howner => ?_⟩
  · refine (hreflects.filters () rfl ?_ _ _).2 ⟨rfl, ?_⟩
    · change ∀ t ∈ ([_, _, _] : List Turn), t.result ≠ none
      simp
    · exact ⟨[_, _], _, [], rfl, ⟨⟨_, rfl⟩, by decide⟩, by simp⟩
  · exact (hkept m v hs r).1 () howner hm

end

end Registry

end DeviceGateway
