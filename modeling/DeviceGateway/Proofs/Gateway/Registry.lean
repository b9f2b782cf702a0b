import DeviceGateway.Proofs.Gateway.Routing
import DeviceGateway.Proofs.Session.Changes
import DeviceGateway.Proofs.Session.Life
import DeviceGateway.Proofs.Session.Line

/-!
# Sessions and observers at one broker

Sessions run their hooks, observers come and go, and publishes are passed on, all at the same time
and on one broker, while every receiver is open. What a party has changed at the broker is what
those of its operations were for that succeeded, in their order.
-/

namespace DeviceGateway

structure Watch where
  what : Observation
  heard : Dealings
  work : Attempt Unit Unit

/-- An observation that is over. One that was given up has no result. -/
structure Observed where
  what : Observation
  heard : Dealings
  result : Option (Except GatewayError Unit)

inductive Party (ι : Type)
  | session (k : ι)
  | observer (n : Nat)
  deriving DecidableEq

def Party.isObserver {ι : Type} : Party ι → Bool
  | session _ => false
  | observer _ => true

structure Registry (ι : Type) where
  services : Services
  states : ι → SessionState
  watches : Nat → Option Watch := fun _ => none
  found : Nat → List (String × String) := fun _ => []

structure Turn.Settled (queue : QueueId) (t : Turn) : Prop where
  ok : ∀ gs, t.result = some (.ok gs) → changesIn t.dealings = t.hook.changes t.before queue
  error : ∀ e, t.result = some (.error e) → changesIn t.dealings = []

namespace Registry

inductive Move (ι : Type)
  | start (k : ι) (hook : Hook)
  | hear (p : Party ι) (c : Call) (r : c.Reply)
  | leave (k : ι) (t : Turn)
  | watch (n : Nat) (what : Observation)
  | conclude (n : Nat) (o : Observed)
  | fanOut (n : Nat)
  | prune (n : Nat)
  | elsewhere

section
variable {ι : Type} [DecidableEq ι]

/-- Sessions and observers can be given up wherever they wait for a reply. A session hands in a
queue with each hook, and no receiver closes. -/
inductive Step (w : Registry ι) : Move ι → Registry ι → Prop
  | start (k : ι) (hook : Hook) (m : Moments) (queue : QueueId) (hidle : (w.states k).doing = none)
      (hq : w.services.queues.IsOpen queue) :
      Step w (.start k hook) { w with states := Function.update w.states k { w.states k with
        queue := queue
        doing := some ⟨hook, [], hook.work w.services.settings m queue (w.states k).session⟩ } }
  | hear (k : ι) {d : Doing} (hd : (w.states k).doing = some d) {s : Session} {c : Call}
      {f : c.Reply → Work Session (Session × Except GatewayError (List Grant))}
      (hw : d.work = .call s c f) {r : c.Reply} {t : Services} (ht : w.services.Answers c r t) :
      Step w (.hear (.session k) c r) { w with
        services := t
        states := Function.update w.states k { w.states k with
          doing := some { d with heard := d.heard ++ [⟨c, r⟩], work := f r } } }
  | finish (k : ι) {d : Doing} (hd : (w.states k).doing = some d) {s : Session}
      {r : Except GatewayError (List Grant)} (hw : d.work = .done (s, r)) :
      Step w (.leave k ⟨d.hook, (w.states k).session, d.heard, none, s, some r⟩) { w with
        states := Function.update w.states k { w.states k with session := s, doing := none } }
  | giveUp (k : ι) {d : Doing} (hd : (w.states k).doing = some d) {s : Session} {c : Call}
      {f : c.Reply → Work Session (Session × Except GatewayError (List Grant))}
      (hw : d.work = .call s c f) (hc : c.isAwaited = true) :
      Step w (.leave k ⟨d.hook, (w.states k).session, d.heard, some c, s, none⟩) { w with
        states := Function.update w.states k { w.states k with session := s, doing := none } }
  | watch (n : Nat) (what : Observation) (m : Moment) (hfree : w.watches n = none)
      (hq : ∀ q ∈ what.queue?, w.services.queues.IsOpen q) :
      Step w (.watch n what) { w with
        watches := Function.update w.watches n
          (some ⟨what, [], what.work w.services.settings m⟩) }
  | learn (n : Nat) {o : Watch} (ho : w.watches n = some o) {c : Call}
      {f : c.Reply → Attempt Unit Unit} (hw : o.work = .call () c f) {r : c.Reply} {t : Services}
      (ht : w.services.Answers c r t) :
      Step w (.hear (.observer n) c r) { w with
        services := t
        watches := Function.update w.watches n
          (some { o with heard := o.heard ++ [⟨c, r⟩], work := f r }) }
  | conclude (n : Nat) {o : Watch} (ho : w.watches n = some o) {r : Except GatewayError Unit}
      (hw : o.work = .done r) :
      Step w (.conclude n ⟨o.what, o.heard, some r⟩) { w with
        watches := Function.update w.watches n none }
  | abandon (n : Nat) {o : Watch} (ho : w.watches n = some o) {c : Call}
      {f : c.Reply → Attempt Unit Unit} (hw : o.work = .call () c f) (hc : c.isAwaited = true) :
      Step w (.conclude n ⟨o.what, o.heard, none⟩) { w with
        watches := Function.update w.watches n none }
  | fanOut (n : Nat) (topic : String) (message : Message) (hn : w.found n = []) :
      Step w (.fanOut n) { w with
        services := { w.services with
          queues := (w.services.broker.fanOut topic message w.services.queues).queues }
        found := Function.update w.found n
          (w.services.broker.fanOut topic message w.services.queues).gone }
  | prune (n : Nat) :
      Step w (.prune n) { w with
        services := { w.services with broker := w.services.broker.prune (w.found n) }
        found := Function.update w.found n [] }
  | elsewhere {t : Services} (hbroker : t.broker = w.services.broker)
      (hopen : ∀ id, w.services.queues.IsOpen id → t.queues.IsOpen id) :
      Step w .elsewhere { w with services := t }

inductive Run (w₀ : Registry ι) : List (Move ι) → Registry ι → Prop
  | start : Run w₀ [] w₀
  | step {ms : List (Move ι)} {w v : Registry ι} {m : Move ι} (hr : Run w₀ ms w)
      (hs : Step w m v) : Run w₀ (ms ++ [m]) v

structure Begins (name : ι → String) (w : Registry ι) : Prop where
  injective : name.Injective
  fresh : ∀ k, ∃ protocol, (w.states k).session = .start (name k) protocol
  idle : ∀ k, (w.states k).doing = none
  unwatched : ∀ n, w.watches n = none
  unfound : ∀ n, w.found n = []
  registrations : w.services.broker.registrations = []

end

section
variable {ι : Type}

def Move.party? : Move ι → Option (Party ι)
  | start k _ | leave k _ => some (.session k)
  | hear p _ _ => some p
  | watch n _ | conclude n _ => some (.observer n)
  | fanOut _ | prune _ | elsewhere => none

/-- The change that the move makes at the broker, if it is one of a party in `q`. -/
def Move.change? (q : Party ι → Bool) : Move ι → Option Call
  | hear p c _ => if q p && !c.isAwaited then some c else none
  | _ => none

def changes (q : Party ι → Bool) (ms : List (Move ι)) : List Call := ms.filterMap (Move.change? q)

def Move.observed? (n : Nat) : Move ι → Option Observed
  | conclude j o => if j = n then some o else none
  | _ => none

def observed (n : Nat) (ms : List (Move ι)) : List Observed := ms.filterMap (Move.observed? n)

variable {ms : List (Move ι)} {m : Move ι} {p : Party ι} {q : Party ι → Bool} {n : Nat}
variable {r : Registration} {c : Call}

@[simp] theorem changes_concat : changes q (ms ++ [m]) = changes q ms ++ (m.change? q).toList :=
  filterMap_concat _ ms m

@[simp] theorem observed_concat :
    observed n (ms ++ [m]) = observed n ms ++ (m.observed? n).toList :=
  filterMap_concat _ ms m

theorem change?_eq_some_iff : m.change? q = some c ↔
    ∃ p x, m = .hear p c x ∧ q p = true ∧ c.isAwaited = false := by
  cases m with
  | hear p c' x =>
    simp only [Move.change?]
    constructor
    · intro h
      split at h
      · rename_i hq
        cases h
        exact ⟨p, x, rfl, by simpa using hq⟩
      · cases h
    · rintro ⟨_, _, ⟨⟩, hq, hc⟩
      simp [hq, hc]
  | _ => simp [Move.change?]

theorem mem_changes : c ∈ changes q ms ↔
    ∃ p x, .hear p c x ∈ ms ∧ q p = true ∧ c.isAwaited = false := by
  simp only [changes, List.mem_filterMap, change?_eq_some_iff]
  constructor
  · rintro ⟨_, hmem, p, x, rfl, hq, hc⟩
    exact ⟨p, x, hmem, hq, hc⟩
  · rintro ⟨p, x, hmem, hq, hc⟩
    exact ⟨_, hmem, p, x, rfl, hq, hc⟩

theorem change?_hear {x : c.Reply} (hq : q p = true) :
    (Move.hear p c x).change? q = if c.isAwaited then none else some c := by
  cases hc : c.isAwaited <;> simp [Move.change?, hq, hc]

theorem lasts_changes (h : ∀ p c x, .hear p c x ∈ ms → c.isAwaited = false → q p = false →
    c.owner? ≠ some r.owner) :
    Lasts (Call.Makes r) (Call.Drops r) (changes (fun _ => true) ms) ↔
      Lasts (Call.Makes r) (Call.Drops r) (changes q ms) := by
  induction ms using List.reverseRecOn with
  | nil => exact Iff.rfl
  | append_singleton ms m ih =>
    have hbefore := ih fun p c x hmem => h p c x (List.mem_append_left _ hmem)
    rw [changes_concat, changes_concat]
    cases hall : m.change? (fun _ => true) with
    | none =>
      have hnone : m.change? q = none := by
        rw [Option.eq_none_iff_forall_ne_some] at hall ⊢
        intro c hc
        obtain ⟨p, x, rfl, -, hawaited⟩ := change?_eq_some_iff.1 hc
        exact hall c (change?_eq_some_iff.2 ⟨p, x, rfl, rfl, hawaited⟩)
      simpa [hnone] using hbefore
    | some c =>
      obtain ⟨p, x, rfl, -, hawaited⟩ := change?_eq_some_iff.1 hall
      by_cases hq : q p = true
      · have hsome : (Move.hear p c x).change? q = some c :=
          change?_eq_some_iff.2 ⟨p, x, rfl, hq, hawaited⟩
        rw [hsome, Option.toList_some, lasts_concat, lasts_concat, hbefore]
      · have hnone : (Move.hear p c x).change? q = none := by simp [Move.change?, hq]
        have hother := h p c x (by simp) hawaited (by simpa using hq)
        obtain ⟨hmakes, hdrops⟩ := Call.not_makes_or_drops hother
        rw [hnone, Option.toList_some, lasts_concat]
        simpa [hmakes, hdrops] using hbefore

theorem Move.observed?_of_party? (h : m.party? ≠ some (.observer n)) : m.observed? n = none := by
  cases m with
  | conclude j o => exact if_neg fun hj => h (by rw [← hj]; rfl)
  | _ => rfl

end

section
variable {ι : Type} [DecidableEq ι]
variable {w v : Registry ι} {ms : List (Move ι)} {m : Move ι} {p : Party ι} {k : ι} {n : Nat}

def Move.turn? (k : ι) : Move ι → Option Turn
  | leave j t => if j = k then some t else none
  | _ => none

def turns (k : ι) (ms : List (Move ι)) : List Turn := ms.filterMap (Move.turn? k)

@[simp] theorem turns_concat : turns k (ms ++ [m]) = turns k ms ++ (m.turn? k).toList :=
  filterMap_concat _ ms m

theorem Move.change?_of_party? (h : m.party? ≠ some p) : m.change? (· = p) = none := by
  rw [Option.eq_none_iff_forall_ne_some]
  intro c hc
  obtain ⟨p', x, rfl, hp, -⟩ := change?_eq_some_iff.1 hc
  exact h (congrArg some (of_decide_eq_true hp))

theorem Move.turn?_of_party? (h : m.party? ≠ some (.session k)) : m.turn? k = none := by
  cases m with
  | leave j t => exact if_neg fun hj => h (by rw [← hj]; rfl)
  | _ => rfl

theorem Step.state_of_party? (hs : w.Step m v) (h : m.party? ≠ some (.session k)) :
    v.states k = w.states k := by
  cases hs with
  | start j | hear j | finish j | giveUp j =>
    exact Function.update_of_ne (fun hk => h (by rw [hk]; rfl)) _ _
  | _ => rfl

theorem Step.watch_of_party? (hs : w.Step m v) (h : m.party? ≠ some (.observer n)) :
    v.watches n = w.watches n := by
  cases hs with
  | watch j | learn j | conclude j | abandon j =>
    exact Function.update_of_ne (fun hn => h (by rw [hn]; rfl)) _ _
  | _ => rfl

theorem Step.isOpen (hs : w.Step m v) {id : QueueId} (hopen : w.services.queues.IsOpen id) :
    v.services.queues.IsOpen id := by
  cases hs with
  | hear k hd hw ht => exact ht.queues ▸ hopen
  | learn n ho hw ht => exact ht.queues ▸ hopen
  | fanOut => exact (Broker.isOpen_foldl_offer _ _ id).2 hopen
  | elsewhere _ h => exact h id hopen
  | _ => exact hopen

structure Keeps (ms : List (Move ι)) (k : ι) (owner : String) (state : SessionState) : Prop where
  named : state.session.owner = owner
  told : changes (· = .session k) ms = (turns k ms).flatMap (fun t => changesIn t.dealings) ++
    (state.doing.map fun d => changesIn d.heard).getD []
  owned : ∀ c ∈ changes (· = .session k) ms, c.owner? = some owner
  doing : ∀ d, state.doing = some d → d.work.Obeys (d.hook.Heeds state.session state.queue)
    (d.hook.Achieves state.session state.queue) d.heard
  settled : ∀ t ∈ turns k ms, t.before.owner = owner ∧ ∃ queue, t.Settled queue
  parted : state.session.phase ≠ .connected → ∀ r, ¬Lasts (Call.Makes r) (Call.Drops r)
    ((turns k ms).flatMap fun t => changesIn t.dealings)

namespace Keeps
variable {owner : String} {state : SessionState} {d : Doing} {s : Session} {c : Call}
variable {f : c.Reply → Work Session (Session × Except GatewayError (List Grant))}

theorem frame (h : Keeps ms k owner state) (hm : m.party? ≠ some (.session k)) :
    Keeps (ms ++ [m]) k owner state := by
  have hchange := Move.change?_of_party? hm
  have hturn := Move.turn?_of_party? hm
  refine ⟨h.named, ?_, ?_, h.doing, ?_, ?_⟩
  · simpa [hchange, hturn] using h.told
  · simpa [hchange] using h.owned
  · simpa [hturn] using h.settled
  · simpa [hturn] using h.parted

theorem start (h : Keeps ms k owner state) (hidle : state.doing = none) (hook : Hook)
    (st : Settings) (m : Moments) (queue : QueueId) :
    Keeps (ms ++ [.start k hook]) k owner { state with
      queue := queue, doing := some ⟨hook, [], hook.work st m queue state.session⟩ } := by
  refine ⟨h.named, ?_, ?_, ?_, ?_, ?_⟩
  · simpa [Move.change?, Move.turn?, hidle, changesIn] using h.told
  · simpa [Move.change?] using h.owned
  · rintro d ⟨⟩
    exact hook.work_changes st m _ _
  · simpa [Move.turn?] using h.settled
  · simpa [Move.turn?] using h.parted

theorem claims (h : Keeps ms k owner state) (hd : state.doing = some d) (hw : d.work = .call s c f)
    (hc : c.isAwaited = false) : c.Claims owner (· = state.queue) := by
  have hobeys := h.doing d hd
  rw [hw] at hobeys
  have hmem := (hobeys.1.next hc).subset (List.mem_append_right _ (List.mem_singleton_self c))
  have hclaims := Hook.claims_of_mem_changes hmem
  rwa [h.named] at hclaims

theorem hear (h : Keeps ms k owner state) (hd : state.doing = some d) (hw : d.work = .call s c f)
    (x : c.Reply) : Keeps (ms ++ [.hear (.session k) c x]) k owner { state with
      doing := some { d with heard := d.heard ++ [⟨c, x⟩], work := f x } } := by
  have hchange : (Move.hear (.session k) c x : Move ι).change? (· = .session k) =
      if c.isAwaited then none else some c := change?_hear (decide_eq_true rfl)
  refine ⟨h.named, ?_, ?_, ?_, ?_, ?_⟩
  · rw [changes_concat, turns_concat, h.told, hd, hchange]
    cases hc : c.isAwaited <;> simp [Move.turn?, changesIn_concat, hc]
  · rw [changes_concat, hchange]
    refine List.forall_mem_append.2 ⟨h.owned, ?_⟩
    cases hc : c.isAwaited with
    | true => simp
    | false => simpa using (h.claims hd hw hc).owner
  · rintro d' ⟨⟩
    have hobeys := h.doing d hd
    rw [hw] at hobeys
    exact hobeys.2 x
  · simpa [Move.turn?] using h.settled
  · simpa [Move.turn?] using h.parted

theorem leave (h : Keeps ms k owner state) (hd : state.doing = some d) {t : Turn}
    (hbefore : t.before = state.session) (hdealings : t.dealings = d.heard) (queue : QueueId)
    (hsettled : t.Settled queue)
    (hclears : state.session.Clears s (changesIn d.heard)) :
    Keeps (ms ++ [.leave k t]) k owner { state with session := s, doing := none } := by
  have hturn : (Move.leave k t : Move ι).turn? k = some t := if_pos rfl
  refine ⟨hclears.owner.trans h.named, ?_, ?_, by simp, ?_, fun hs r => ?_⟩
  · simpa [hturn, Move.change?, hdealings, hd] using h.told
  · simpa [Move.change?] using h.owned
  · rw [turns_concat, hturn]
    refine List.forall_mem_append.2 ⟨h.settled, ?_⟩
    simpa [hbefore] using ⟨h.named, queue, hsettled⟩
  · rw [turns_concat, hturn, Option.toList_some, List.flatMap_append, List.flatMap_singleton,
      hdealings]
    rcases hclears.parted hs with ⟨hparted, hnone⟩ | hgone
    · rw [hnone, List.append_nil]
      exact h.parted hparted r
    · rw [hgone, lasts_concat]
      rintro (hmakes | ⟨⟨before, c, after, heq, hmakes, -⟩, hdrops⟩)
      · exact hmakes
      -- Whatever was registered belongs to the owner of the session.
      · have hmem : c ∈ changes (· = .session k) ms := by
          rw [h.told, heq]
          simp
        have howner : c.owner? = some r.owner := by
          by_contra hne
          exact (Call.not_makes_or_drops hne).1 hmakes
        have hsame : r.owner = owner := Option.some.inj (howner.symm.trans (h.owned c hmem))
        exact hdrops (hsame.trans h.named.symm)

end Keeps

structure Minds (ms : List (Move ι)) (n : Nat) (watch : Option Watch) : Prop where
  told : changes (· = .observer n) ms = (observed n ms).flatMap (fun o => changesIn o.heard) ++
    (watch.map fun o => changesIn o.heard).getD []
  meant : ∀ c ∈ changes (· = .observer n) ms,
    ∃ what client channel, c = Observation.change client channel what
  doing : ∀ o, watch = some o →
    o.work.Obeys (fun h _ => o.what.Heeds h) o.what.Achieves o.heard
  achieved : ∀ o ∈ observed n ms, ∀ r, o.result = some r → o.what.Achieves o.heard r

namespace Minds
variable {watch : Option Watch} {o : Watch} {c : Call} {f : c.Reply → Attempt Unit Unit}

theorem frame (h : Minds ms n watch) (hm : m.party? ≠ some (.observer n)) :
    Minds (ms ++ [m]) n watch := by
  have hchange := Move.change?_of_party? hm
  have hobserved := Move.observed?_of_party? hm
  refine ⟨?_, ?_, h.doing, ?_⟩
  · simpa [hchange, hobserved] using h.told
  · simpa [hchange] using h.meant
  · simpa [hobserved] using h.achieved

theorem start (h : Minds ms n none) (what : Observation) (st : Settings) (m : Moment) :
    Minds (ms ++ [.watch n what]) n (some ⟨what, [], what.work st m⟩) := by
  refine ⟨?_, ?_, ?_, ?_⟩
  · simpa [Move.change?, Move.observed?, changesIn] using h.told
  · simpa [Move.change?] using h.meant
  · rintro o ⟨⟩
    exact what.work_changes st m
  · simpa [Move.observed?] using h.achieved

theorem means (h : Minds ms n (some o)) (hw : o.work = .call () c f) (hc : c.isAwaited = false) :
    o.what.Means o.heard c := by
  have hobeys := h.doing o rfl
  rw [hw] at hobeys
  exact hobeys.1.means hc

theorem learn (h : Minds ms n (some o)) (hw : o.work = .call () c f) (x : c.Reply) :
    Minds (ms ++ [.hear (.observer n) c x]) n
      (some { o with heard := o.heard ++ [⟨c, x⟩], work := f x }) := by
  have hchange : (Move.hear (.observer n) c x : Move ι).change? (· = .observer n) =
      if c.isAwaited then none else some c := change?_hear (decide_eq_true rfl)
  refine ⟨?_, ?_, ?_, ?_⟩
  · rw [changes_concat, observed_concat, h.told, hchange]
    cases hc : c.isAwaited <;> simp [Move.observed?, changesIn_concat, hc]
  · rw [changes_concat, hchange]
    refine List.forall_mem_append.2 ⟨h.meant, ?_⟩
    cases hc : c.isAwaited with
    | true => simp
    | false =>
      obtain ⟨client, channel, -, -, -, rfl⟩ := h.means hw hc
      simpa using ⟨o.what, client, channel, rfl⟩
  · rintro o' ⟨⟩
    have hobeys := h.doing o rfl
    rw [hw] at hobeys
    exact hobeys.2 x
  · simpa [Move.observed?] using h.achieved

theorem conclude (h : Minds ms n (some o)) {r : Option (Except GatewayError Unit)}
    (hr : ∀ x, r = some x → o.what.Achieves o.heard x) :
    Minds (ms ++ [.conclude n ⟨o.what, o.heard, r⟩]) n none := by
  have hobserved : (Move.conclude n ⟨o.what, o.heard, r⟩ : Move ι).observed? n =
      some ⟨o.what, o.heard, r⟩ := if_pos rfl
  refine ⟨?_, ?_, by simp, ?_⟩
  · simpa [hobserved, Move.change?] using h.told
  · simpa [Move.change?] using h.meant
  · rw [observed_concat, hobserved]
    refine List.forall_mem_append.2 ⟨h.achieved, ?_⟩
    simpa using hr

end Minds

end

end Registry

end DeviceGateway
