import DeviceGateway.Proofs.Access.Keeping

/-!
# Who was found is remembered for the lifetime of an entry

Enquiries are dealt with one after another, and the store answers each that gets to it as it likes
and when it likes. Once the store has named a client for a secret, the same secret finds that client
without the store until the entry's time is over; then the store is asked again. What becomes of
other secrets meanwhile makes no difference.
-/

namespace DeviceGateway
open Cache (lastSet live? liveKeys Tellable Timely)

/-- A secret that is brought `pause` after the one before was dealt with. Should the store be asked,
it takes `delay` to answer. -/
structure Visit where
  pause : Nat
  secret : String
  delay : Nat
  store : String → Except AccessError ClientId

/-- Who deals with the visits, with a log of the uses of the cache. -/
structure LookupState where
  cache : Cache := {}
  now : Nat := 0
  log : Cache.Log := []
  asked : Nat := 0

namespace LookupState

def answer (ttl : Duration) (v : Visit) (p : LookupState) :
    (e : Errand) → LookupState × Outcome e.Reply
  | .lookUp key =>
    let (cache, reply) := p.cache.get p.now key
    ({ p with cache := cache, log := p.log ++ [(p.now, .get key)] }, .answer reply)
  | .resolve secret =>
    ({ p with now := p.now + v.delay, asked := p.asked + 1 }, .answer (v.store secret))
  | .keep key client =>
    let (cache, reply) := p.cache.set p.now key client.text ttl
    ({ p with cache := cache, log := p.log ++ [(p.now, .set key client.text ttl)] }, reply)

def await (p : LookupState) (v : Visit) : LookupState := { p with now := p.now + v.pause }

def receive (ttl : Duration) (p : LookupState) (v : Visit) :
    LookupState × Outcome (Except AccessError ClientId) :=
  (identify v.secret).run (answer ttl v) (p.await v)

def after (ttl : Duration) (p : LookupState) (visits : List Visit) : LookupState :=
  visits.foldl (fun p v => (p.receive ttl v).1) p

/-- The store is asked about the secret and names the client. -/
def Learns (ttl : Duration) (p : LookupState) (v : Visit) (client : ClientId) : Prop :=
  (p.receive ttl v).2 = .answer (.ok client) ∧ (p.receive ttl v).1.asked = p.asked + 1

/-- The secret is brought by these visits only before the deadline. -/
def Early (ttl : Duration) (p : LookupState) (visits : List Visit) (secret : String)
    (deadline : Nat) :
    Prop :=
  ∀ first v rest, visits = first ++ v :: rest → v.secret = secret →
    (p.after ttl first).now + v.pause < deadline

variable {ttl : Duration} {p q : LookupState} {v : Visit} {visits : List Visit} {client : ClientId}
variable {s id : String} {deadline : Nat}

theorem after_append (ttl : Duration) (p : LookupState) (first rest : List Visit) :
    p.after ttl (first ++ rest) = (p.after ttl first).after ttl rest := List.foldl_append

def looked (p : LookupState) (v : Visit) (c : Cache) : LookupState :=
  { p with
    cache := c
    now := p.now + v.pause
    log := p.log ++ [(p.now + v.pause, .get (secretKey v.secret))] }

def informed (ttl : Duration) (p : LookupState) (v : Visit) (c : Cache) (client : ClientId) :
    LookupState where
  cache := c
  now := p.now + v.pause + v.delay
  log := p.log ++ [(p.now + v.pause, .get (secretKey v.secret))] ++
    [(p.now + v.pause + v.delay, .set (secretKey v.secret) client.text ttl)]
  asked := p.asked + 1

/-- All that a visit can come to. -/
inductive Dealt (ttl : Duration) (p : LookupState) (v : Visit) :
    LookupState → Outcome (Except AccessError ClientId) → Prop
  | refused (hs : v.secret = "") : Dealt ttl p v (p.await v) (.answer (.error .missingCredential))
  | hit (hs : v.secret ≠ "") {c : Cache} {id : String}
      (hget : p.cache.get (p.now + v.pause) (secretKey v.secret) = (c, .ok (some id))) :
      Dealt ttl p v (p.looked v c) (.answer (.ok ⟨id⟩))
  | failed (hs : v.secret ≠ "") {c : Cache} {found : Except CacheError (Option String)}
      (hget : p.cache.get (p.now + v.pause) (secretKey v.secret) = (c, found))
      (hmiss : ∀ id, found ≠ .ok (some id)) {e : AccessError} (hv : v.store v.secret = .error e) :
      Dealt ttl p v
        { p.looked v c with now := p.now + v.pause + v.delay, asked := p.asked + 1 }
        (.answer (.error .notFound))
  | kept (hs : v.secret ≠ "") {c c' : Cache} {found : Except CacheError (Option String)}
      (hget : p.cache.get (p.now + v.pause) (secretKey v.secret) = (c, found))
      (hmiss : ∀ id, found ≠ .ok (some id)) {client : ClientId} (hv : v.store v.secret = .ok client)
      {reply : Except CacheError Unit}
      (hset : c.set (p.now + v.pause + v.delay) (secretKey v.secret) client.text ttl =
        (c', .answer reply)) :
      Dealt ttl p v (p.informed ttl v c' client) (.answer (.ok client))
  | crashed (hs : v.secret ≠ "") {c c' : Cache} {found : Except CacheError (Option String)}
      (hget : p.cache.get (p.now + v.pause) (secretKey v.secret) = (c, found))
      (hmiss : ∀ id, found ≠ .ok (some id)) {client : ClientId} (hv : v.store v.secret = .ok client)
      (hset : c.set (p.now + v.pause + v.delay) (secretKey v.secret) client.text ttl =
        (c', .crash)) :
      Dealt ttl p v (p.informed ttl v c' client) .crash

theorem dealt_receive (ttl : Duration) (p : LookupState) (v : Visit) :
    ∃ q result, p.receive ttl v = (q, result) ∧ Dealt ttl p v q result := by
  suffices h : Dealt ttl p v (p.receive ttl v).1 (p.receive ttl v).2 from ⟨_, _, rfl, h⟩
  rw [receive, identify]
  by_cases hs : v.secret = ""
  · rw [if_pos hs]
    exact .refused hs
  · rw [if_neg hs]
    cases hget : p.cache.get (p.now + v.pause) (secretKey v.secret) with | mk c found =>
    have hlook : (p.await v).answer ttl v (.lookUp (secretKey v.secret)) =
        (p.looked v c, .answer found) := by
      rw [answer, await]
      simp only [hget]
      rfl
    have hanew (hmiss : ∀ id, found ≠ .ok (some id)) :
        Dealt ttl p v ((identifyAnew v.secret).run (answer ttl v) (p.looked v c)).1
          ((identifyAnew v.secret).run (answer ttl v) (p.looked v c)).2 := by
      rw [identifyAnew]
      cases hv : v.store v.secret with
      | error e =>
        simp only [Activity.run, answer, hv]
        exact .failed hs hget hmiss hv
      | ok client =>
        cases hset : c.set (p.now + v.pause + v.delay) (secretKey v.secret) client.text ttl with
        | mk c' reply =>
        simp only [Activity.run, answer, hv, looked, hset]
        cases reply with
        | answer reply => exact .kept hs hget hmiss hv hset
        | crash => exact .crashed hs hget hmiss hv hset
    simp only [Activity.run, hlook]
    cases found with
    | error e => exact hanew (by simp)
    | ok found =>
      cases found with
      | none => exact hanew (by simp)
      | some id => exact .hit hs hget

structure StandsIn (r : Registrar) (now : Nat) (r' : Registrar) (p : LookupState) : Prop where
  registrar : r' = { r with cache := p.cache }
  now : p.now = now

theorem StandsIn.answer {r : Registrar} {now : Nat} (secret : String) (r' : Registrar)
    (p : LookupState) (e : Errand) (h : StandsIn r now r' p) :
    (r'.answer now e).2 = (p.answer r.ttl ⟨0, secret, 0, r.store.identify⟩ e).2 ∧
      StandsIn r now (r'.answer now e).1
        (p.answer r.ttl ⟨0, secret, 0, r.store.identify⟩ e).1 := by
  obtain ⟨rfl, rfl⟩ := h
  cases e with
  | lookUp key => exact ⟨rfl, rfl, rfl⟩
  | resolve secret => exact ⟨rfl, rfl, rfl⟩
  | keep key client => exact ⟨rfl, rfl, rfl⟩

theorem identify_eq_receive (r : Registrar) (now : Nat) (secret : String) :
    let visit := LookupState.receive r.ttl { cache := r.cache, now := now }
      ⟨0, secret, 0, r.store.identify⟩
    (r.identify now secret).2 = visit.2 ∧
      (r.identify now secret).1 = { r with cache := visit.1.cache } := by
  intro visit
  have hstart : StandsIn r now r
      (await { cache := r.cache, now := now } ⟨0, secret, 0, r.store.identify⟩) := ⟨rfl, rfl⟩
  have h := Activity.run_agree (StandsIn.answer secret) (DeviceGateway.identify secret) hstart
  exact ⟨h.1, h.2.registrar⟩

structure Sound (p : LookupState) : Prop where
  cache : p.cache = Cache.after {} p.log
  timely : Timely p.log p.now

theorem sound_start : Sound {} :=
  ⟨rfl, List.Pairwise.nil, fun _ hu => absurd hu List.not_mem_nil⟩

theorem Sound.mirrors (h : p.Sound) (htell : Tellable p.log) : p.cache.Mirrors p.log p.now := by
  rw [h.cache]
  exact Cache.mirrors_after h.timely htell

theorem Sound.await (h : p.Sound) (v : Visit) : (p.await v).Sound :=
  ⟨h.cache, h.timely.mono (Nat.le_add_right _ _)⟩

theorem Sound.answer (h : p.Sound) (ttl : Duration) (v : Visit) (e : Errand) :
    (p.answer ttl v e).1.Sound := by
  cases e with
  | lookUp key =>
    refine ⟨?_, h.timely.concat _⟩
    rw [LookupState.answer, Cache.after_concat, ← h.cache]
    rfl
  | resolve secret => exact ⟨h.cache, h.timely.mono (Nat.le_add_right _ _)⟩
  | keep key client =>
    refine ⟨?_, h.timely.concat _⟩
    rw [LookupState.answer, Cache.after_concat, ← h.cache]
    rfl

theorem Sound.receive (h : p.Sound) (ttl : Duration) (v : Visit) : (p.receive ttl v).1.Sound :=
  Activity.run_keeps (fun _ e hw => hw.answer ttl v e) _ (h.await v)

theorem Sound.after (h : p.Sound) (ttl : Duration) (visits : List Visit) :
    (p.after ttl visits).Sound := by
  induction visits generalizing p with
  | nil => exact h
  | cons v visits ih => exact ih (h.receive ttl v)

structure Extends (q p : LookupState) : Prop where
  now : p.now ≤ q.now
  log : p.log <+: q.log

theorem Extends.refl (p : LookupState) : p.Extends p := ⟨le_rfl, List.prefix_refl _⟩

theorem Extends.trans {r : LookupState} (h : r.Extends q) (h' : q.Extends p) : r.Extends p :=
  ⟨h'.now.trans h.now, h'.log.trans h.log⟩

theorem extends_answer (ttl : Duration) (v : Visit) (p : LookupState) (e : Errand) :
    (p.answer ttl v e).1.Extends p := by
  cases e with
  | lookUp key => exact ⟨le_rfl, List.prefix_append _ _⟩
  | resolve secret => exact ⟨Nat.le_add_right _ _, List.prefix_refl _⟩
  | keep key client => exact ⟨le_rfl, List.prefix_append _ _⟩

theorem extends_receive (ttl : Duration) (p : LookupState) (v : Visit) :
    (p.receive ttl v).1.Extends (p.await v) :=
  Activity.run_keeps (I := fun q => q.Extends (p.await v))
    (fun q e hq => (extends_answer ttl v q e).trans hq) _ (.refl _)

theorem extends_await (p : LookupState) (v : Visit) : (p.await v).Extends p :=
  ⟨Nat.le_add_right _ _, List.prefix_refl _⟩

theorem extends_after (ttl : Duration) (p : LookupState) (visits : List Visit) :
    (p.after ttl visits).Extends p := by
  induction visits generalizing p with
  | nil => exact .refl p
  | cons v visits ih =>
    have hv := (extends_receive ttl p v).trans (extends_await p v)
    exact (ih (p.receive ttl v).1).trans hv

theorem Extends.tellable (h : q.Extends p) (htell : Tellable q.log) : Tellable p.log := by
  obtain ⟨rest, hrest⟩ := h.log
  rw [← hrest] at htell
  exact htell.of_append

theorem Sound.get_eq (h : p.Sound) (htell : Tellable p.log) (v : Visit) (key : String) :
    (p.cache.get (p.now + v.pause) key).2 = .ok (live? p.log (p.now + v.pause) key) :=
  ((h.await v).mirrors htell).get_eq key

theorem receive_of_live (h : p.Sound) (htell : Tellable p.log) (hs : v.secret ≠ "")
    (hlive : live? p.log (p.now + v.pause) (secretKey v.secret) = some id) :
    (p.receive ttl v).2 = .answer (.ok ⟨id⟩) ∧ (p.receive ttl v).1.asked = p.asked ∧
      (p.receive ttl v).1.log = p.log ++ [(p.now + v.pause, .get (secretKey v.secret))] := by
  have hget := h.get_eq htell v (secretKey v.secret)
  rw [hlive] at hget
  obtain ⟨q, result, hr, hd⟩ := dealt_receive ttl p v
  rw [hr]
  cases hd with
  | refused hs' => exact absurd hs' hs
  | hit hs hget' =>
    rw [hget'] at hget
    cases hget
    exact ⟨rfl, rfl, rfl⟩
  | failed hs hget' hmiss hv =>
    rw [hget'] at hget
    exact absurd hget (hmiss id)
  | kept hs hget' hmiss hv hset =>
    rw [hget'] at hget
    exact absurd hget (hmiss id)
  | crashed hs hget' hmiss hv hset =>
    rw [hget'] at hget
    exact absurd hget (hmiss id)

theorem asked_of_ended (h : p.Sound) (htell : Tellable p.log) (hs : v.secret ≠ "")
    (hended : live? p.log (p.now + v.pause) (secretKey v.secret) = none) :
    (p.receive ttl v).1.asked = p.asked + 1 := by
  have hget := h.get_eq htell v (secretKey v.secret)
  rw [hended] at hget
  obtain ⟨q, result, hr, hd⟩ := dealt_receive ttl p v
  rw [hr]
  cases hd with
  | refused hs' => exact absurd hs' hs
  | hit hs hget' =>
    rw [hget'] at hget
    cases hget
  | failed hs hget' hmiss hv => rfl
  | kept hs hget' hmiss hv hset => rfl
  | crashed hs hget' hmiss hv hset => rfl

theorem Learns.lastSet (h : p.Learns ttl v client) : v.secret ≠ "" ∧
    lastSet (p.receive ttl v).1.log (secretKey v.secret) =
      some (client.text, (p.receive ttl v).1.now + ttl.nanos) := by
  obtain ⟨q, result, hr, hd⟩ := dealt_receive ttl p v
  rw [Learns, hr] at h
  rw [hr]
  obtain ⟨hclient, hasked⟩ := h
  cases hd with
  | refused hs => cases hclient
  | hit hs hget => exact absurd hasked (Nat.ne_of_lt (Nat.lt_succ_self _))
  | failed hs hget hmiss hv => cases hclient
  | kept hs hget hmiss hv hset =>
    cases hclient
    exact ⟨hs, Cache.lastSet_set _ _ _ _ _⟩
  | crashed hs hget hmiss hv hset => cases hclient

theorem lastSet_receive_of_ne (hne : v.secret ≠ s) :
    lastSet (p.receive ttl v).1.log (secretKey s) = lastSet p.log (secretKey s) := by
  have hkey : secretKey v.secret ≠ secretKey s := fun h => hne (secretKey_inj h)
  obtain ⟨q, result, hr, hd⟩ := dealt_receive ttl p v
  rw [hr]
  cases hd with
  | refused hs => rfl
  | hit hs hget => exact Cache.lastSet_get _ _ _ _
  | failed hs hget hmiss hv => exact Cache.lastSet_get _ _ _ _
  | kept hs hget hmiss hv hset =>
    exact (Cache.lastSet_set_of_ne _ _ _ _ hkey).trans (Cache.lastSet_get _ _ _ _)
  | crashed hs hget hmiss hv hset =>
    exact (Cache.lastSet_set_of_ne _ _ _ _ hkey).trans (Cache.lastSet_get _ _ _ _)

theorem lastSet_after (h : p.Sound) (htell : Tellable (p.after ttl visits).log) (hs : s ≠ "")
    (hlast : lastSet p.log (secretKey s) = some (id, deadline))
    (hearly : p.Early ttl visits s deadline) :
    lastSet (p.after ttl visits).log (secretKey s) = some (id, deadline) := by
  induction visits generalizing p with
  | nil => exact hlast
  | cons v visits ih =>
    have hstill : lastSet (p.receive ttl v).1.log (secretKey s) = some (id, deadline) := by
      by_cases hv : v.secret = s
      -- An early visit finds the entry, so it does not come to write one.
      · have hp := (extends_after ttl p (v :: visits)).tellable htell
        have hlive : live? p.log (p.now + v.pause) (secretKey v.secret) = some id := by
          rw [Cache.live?_eq_some_iff, hv]
          exact ⟨deadline, hlast, hearly [] v visits rfl hv⟩
        rw [(receive_of_live h hp (hv ▸ hs) hlive).2.2, Cache.lastSet_get]
        exact hlast
      · rw [lastSet_receive_of_ne hv]
        exact hlast
    refine ih (h.receive ttl v) htell hstill ?_
    intro first w rest hvisits
    exact hearly (v :: first) w rest (congrArg (v :: ·) hvisits)

theorem now_le_after (ttl : Duration) (p : LookupState) (first : List Visit) (v : Visit)
    (rest : List Visit) :
    (p.after ttl first).now + v.pause ≤ (p.after ttl (first ++ v :: rest)).now := by
  rw [after_append]
  have hv := extends_receive ttl (p.after ttl first) v
  exact ((extends_after ttl _ rest).trans hv).now

/-- Whatever uses a cache was put to, it gives what the ideal map gives, it holds no less than what
is live, and a set leaves the live entries of other keys and its own. So a client that the store has
named for a secret is found again without the store until the lifetime of the entry is over, and the
first visit after that asks the store. -/
theorem remembered_until_deadline :
    (∀ (log : Cache.Log) (now : Nat), Timely log now → Tellable log →
      (∀ key, ((Cache.after {} log).get now key).2 = .ok (live? log now key)) ∧
      (liveKeys log now).card ≤ (Cache.after {} log).size ∧
      ∀ key value (ttl : Duration), now + ttl.nanos < Cache.endOfTime →
        ((Cache.after {} log).set now key value ttl).2 = .answer (.ok ()) ∧
        ((Cache.after {} log).set now key value ttl).1.size =
          ((liveKeys (log ++ [(now, .set key value ttl)]) now).erase key).card + 1) ∧
    ∀ (ttl : Duration) (before between : List Visit) (x y : Visit) (client : ClientId),
      let q := ((after ttl {} before).receive ttl x).1
      let r := q.after ttl between
      Tellable r.log → (after ttl {} before).Learns ttl x client → y.secret = x.secret →
        (r.now + y.pause < q.now + ttl.nanos →
          (r.receive ttl y).2 = .answer (.ok client) ∧ (r.receive ttl y).1.asked = r.asked) ∧
        (q.now + ttl.nanos ≤ r.now + y.pause →
          q.Early ttl between x.secret (q.now + ttl.nanos) →
          (r.receive ttl y).1.asked = r.asked + 1) := by
  constructor
  · intro log now htimely htell
    have h := Cache.mirrors_after htimely htell
    refine ⟨h.get_eq, h.card_liveKeys_le, fun key value ttl hend => ⟨?_, h.size_set hend key value⟩⟩
    rw [Cache.set_of_lt h.sound hend]
  · intro ttl before between x y client q r htell hlearns hy
    have hq : q.Sound := (sound_start.after ttl before).receive ttl x
    have hr : r.Sound := hq.after ttl between
    obtain ⟨hs, hlast⟩ := hlearns.lastSet
    rw [← hy] at hs hlast ⊢
    constructor
    · intro hlive
      have hkept : lastSet r.log (secretKey y.secret) = some (client.text, q.now + ttl.nanos) := by
        apply lastSet_after hq htell hs hlast
        -- All that came before this visit came before the deadline, too.
        intro first z rest hbetween _
        have hle : (q.after ttl first).now + z.pause ≤ r.now := by
          rw [show r = q.after ttl (first ++ z :: rest) by rw [← hbetween]]
          exact now_le_after ttl q first z rest
        exact Nat.lt_of_le_of_lt (Nat.le_add_right_of_le hle) hlive
      have hfound := Cache.live?_eq_some_iff.2 ⟨_, hkept, hlive⟩
      exact (receive_of_live hr htell hs hfound).imp_right And.left
    · intro hended hearly
      have hkept := lastSet_after hq htell hs hlast hearly
      apply asked_of_ended hr htell hs
      rw [live?, hkept]
      exact if_neg (Nat.not_lt.2 hended)

def arrival : Visit := ⟨0, "s", 5, fun _ => .ok ⟨"A"⟩⟩

def stranger : Visit := ⟨1, "t", 3, fun _ => .error .notFound⟩

def comeback (pause : Nat) : Visit := ⟨pause, "s", 0, fun _ => .error .notFound⟩

theorem remembered_until_deadline_of_arrival :
    let r := after (.ofSecs 600) {} [arrival, stranger]
    (r.cache.get r.now (secretKey "s")).2 = .ok (some "A") ∧
      (r.receive (.ofSecs 600) (comeback 20)).2 = .answer (.ok ⟨"A"⟩) ∧
      (r.receive (.ofSecs 600) (comeback (600 * Duration.second))).1.asked = 3 := by
  obtain ⟨hcache, hvisits⟩ := remembered_until_deadline
  have hlog : (after (.ofSecs 600) {} [arrival, stranger]).log =
      [(0, .get "auth:secret:s"), (5, .set "auth:secret:s" "A" (.ofSecs 600)),
        (6, .get "auth:secret:t")] := rfl
  have htimely : Timely (after (.ofSecs 600) {} [arrival, stranger]).log 9 := by
    rw [hlog]
    exact ⟨by simp, by simp⟩
  have htell : Tellable (after (.ofSecs 600) {} [arrival, stranger]).log := by
    rw [hlog]
    intro now key value ttl hset
    obtain ⟨rfl, -, -, rfl⟩ : now = 5 ∧ key = "auth:secret:s" ∧ value = "A" ∧ ttl = .ofSecs 600 := by
      simpa using hset
    decide
  have hlearns : (after (.ofSecs 600) {} []).Learns (.ofSecs 600) arrival ⟨"A"⟩ := ⟨rfl, rfl⟩
  have hget := (hcache _ 9 htimely htell).1 "auth:secret:s"
  have hsoon := (hvisits (.ofSecs 600) [] [stranger] arrival (comeback 20) ⟨"A"⟩ htell hlearns rfl).1
  have hlate := (hvisits (.ofSecs 600) [] [stranger] arrival (comeback (600 * Duration.second)) ⟨"A"⟩
    htell hlearns rfl).2 (by decide)
  refine ⟨hget, (hsoon (by decide)).1, hlate ?_⟩
  intro first z rest hbetween hz
  cases first with
  | nil =>
    cases hbetween
    exact absurd hz (by decide)
  | cons v first => simp at hbetween

end LookupState

end DeviceGateway
