import DeviceGateway.Access.Identify
import DeviceGateway.Proofs.Activity.Obeys

/-!
# How old an answer about a secret may be

Any number of enquiries share one cache. Each is cut into its errands, and between them others run
their own, the clock goes on, and the store changes its mind. An enquiry that finds a client was
told so by the store itself, or by an enquiry about the same secret that wrote its answer to the
cache less than the lifetime of an entry ago.
-/

namespace DeviceGateway

namespace Cache
variable {c c' : Cache} {now : Nat} {key : String}

theorem mem_of_mem_get {reply : Except CacheError (Option String)}
    (h : c.get now key = (c', reply)) {e : Entry} (he : e ∈ c'.entries) : e ∈ c.entries := by
  simp only [get] at h
  split at h
  · cases h
    exact he
  · split at h
    · cases h
      exact he
    · split at h
      · cases h
        exact he
      · cases h
        exact (List.mem_filter.1 he).1

theorem exists_of_get_eq_some {value : String} (h : (c.get now key).2 = .ok (some value)) :
    ∃ e ∈ c.entries, e.key = key ∧ e.value = value ∧ now < e.deadline := by
  simp only [get] at h
  split at h
  · cases h
  · split at h
    · cases h
    · rename_i e he
      split at h
      · rename_i hlive
        cases h
        exact ⟨e, List.mem_of_find?_eq_some he, by simpa using List.find?_some he, rfl, hlive⟩
      · cases h

theorem get_of_find? {e : Entry} (hp : c.poisoned = false) (h : c.find? key = some e)
    (hlive : now < e.deadline) : c.get now key = (c, .ok (some e.value)) := by
  simp only [get, hp, h, if_pos hlive, Bool.false_eq_true, if_false]

theorem find?_get {reply : Except CacheError (Option String)} (h : c.get now key = (c', reply))
    {other : String} {e : Entry} (he : c.find? other = some e) (hlive : now < e.deadline) :
    c'.find? other = some e := by
  simp only [get] at h
  split at h
  · cases h
    exact he
  · split at h
    · cases h
      exact he
    · rename_i x hx
      split at h
      · cases h
        exact he
      · rename_i hended
        cases h
        rw [find?_erase, if_neg]
        · exact he
        · rintro rfl
          rw [hx] at he
          cases he
          exact hended hlive

theorem set_of_lt {value : String} {ttl : Duration} (hp : c.poisoned = false)
    (h : now + ttl.nanos < endOfTime) :
    c.set now key value ttl =
      ({ (c.sweep now).erase key with
        entries := ⟨key, value, now + ttl.nanos⟩ :: ((c.sweep now).erase key).entries },
      .answer (.ok ())) := by
  rw [set, hp, if_neg Bool.false_ne_true, if_neg (Nat.not_le.2 h)]

theorem mem_of_mem_set {value : String} {ttl : Duration} {reply : Outcome (Except CacheError Unit)}
    (h : c.set now key value ttl = (c', reply)) {e : Entry} (he : e ∈ c'.entries) :
    e ∈ c.entries ∨ reply = .answer (.ok ()) ∧ e = ⟨key, value, now + ttl.nanos⟩ := by
  simp only [set] at h
  split at h
  · cases h
    exact .inl he
  · split at h
    · cases h
      exact .inl (List.mem_filter.1 he).1
    · cases h
      rcases List.mem_cons.1 he with rfl | he
      · exact .inr ⟨rfl, rfl⟩
      · exact .inl (List.mem_filter.1 (List.mem_filter.1 he).1).1

end Cache

theorem secretKey_inj {s t : String} (h : secretKey s = secretKey t) : s = t := by
  have hl := congrArg String.toList h
  simp only [secretKey, String.toList_append] at hl
  exact String.toList_inj.1 (List.append_cancel_left hl)

namespace Errand

def isResolve : Errand → Bool
  | resolve _ => true
  | _ => false

def isKeep : Errand → Bool
  | keep _ _ => true
  | _ => false

end Errand

namespace Enquiry

abbrev Work := Activity Unit Errand Errand.Reply (Except AccessError ClientId)

def pending : Work → List Errand
  | .done _ => []
  | .call _ e _ => [e]

inductive Stage (secret : String) : History Errand Errand.Reply → Work → Prop
  | refused (h : secret = "") : Stage secret [] (.done (.error .missingCredential))
  | asked (h : secret ≠ "") {k : Except CacheError (Option String) → Work}
      (hk : identify secret = .call () (.lookUp (secretKey secret)) k) :
      Stage secret [] (.call () (.lookUp (secretKey secret)) k)
  | hit (h : secret ≠ "") (id : String) :
      Stage secret [⟨.lookUp (secretKey secret), .ok (some id)⟩] (.done (.ok ⟨id⟩))
  | missed (h : secret ≠ "") {found : Except CacheError (Option String)}
      (hf : ∀ id, found ≠ .ok (some id)) :
      Stage secret [⟨.lookUp (secretKey secret), found⟩] (identifyAnew secret)
  | failed (h : secret ≠ "") {found : Except CacheError (Option String)}
      (hf : ∀ id, found ≠ .ok (some id)) (e : AccessError) :
      Stage secret [⟨.lookUp (secretKey secret), found⟩, ⟨.resolve secret, .error e⟩]
        (.done (.error .notFound))
  | resolved (h : secret ≠ "") {found : Except CacheError (Option String)}
      (hf : ∀ id, found ≠ .ok (some id)) (client : ClientId) :
      Stage secret [⟨.lookUp (secretKey secret), found⟩, ⟨.resolve secret, .ok client⟩]
        (.call () (.keep (secretKey secret) client) fun _ => .done (.ok client))
  | kept (h : secret ≠ "") {found : Except CacheError (Option String)}
      (hf : ∀ id, found ≠ .ok (some id)) (client : ClientId) (reply : Except CacheError Unit) :
      Stage secret [⟨.lookUp (secretKey secret), found⟩, ⟨.resolve secret, .ok client⟩,
        ⟨.keep (secretKey secret) client, reply⟩] (.done (.ok client))

def errandsOf (h : History Errand Errand.Reply) (w : Work) : List Errand := h.map (·.1) ++ pending w

variable {secret : String} {h : History Errand Errand.Reply} {w : Work}

theorem stage_identify (secret : String) : Stage secret [] (identify secret) := by
  by_cases hs : secret = ""
  · subst hs
    exact .refused rfl
  · obtain ⟨k, hk⟩ : ∃ k, identify secret = .call () (.lookUp (secretKey secret)) k :=
      ⟨_, if_neg hs⟩
    rw [hk]
    exact .asked hs hk

theorem Stage.told {e : Errand} {k : e.Reply → Work} (hs : Stage secret h w)
    (hw : w = .call () e k) (reply : e.Reply) : Stage secret (h ++ [⟨e, reply⟩]) (k reply) := by
  cases hs with
  | asked hs hk =>
    rw [identify, if_neg hs] at hk
    cases hw
    cases hk
    match reply with
    | .ok (some id) => exact .hit hs id
    | .ok none => exact .missed hs (by simp)
    | .error e => exact .missed hs (by simp)
  | missed hs hf =>
    cases hw
    cases reply with
    | error e => exact .failed hs hf e
    | ok client => exact .resolved hs hf client
  | resolved hs hf client =>
    cases hw
    exact .kept hs hf client reply
  | _ => cases hw

theorem Stage.of_done {client : ClientId} (hs : Stage secret h w) (hw : w = .done (.ok client)) :
    ⟨.lookUp (secretKey secret), .ok (some client.text)⟩ ∈ h ∨
      ⟨.resolve secret, .ok client⟩ ∈ h := by
  cases hs with
  | hit hs id =>
    cases hw
    exact .inl List.mem_cons_self
  | kept hs hf client' reply =>
    cases hw
    exact .inr (by simp)
  | _ => cases hw

theorem Stage.of_keep {key : String} {client : ClientId} {k : Except CacheError Unit → Work}
    (hs : Stage secret h w) (hw : w = .call () (.keep key client) k) :
    key = secretKey secret ∧ ⟨.resolve secret, .ok client⟩ ∈ h := by
  cases hs with
  | resolved hs hf client' =>
    cases hw
    exact ⟨rfl, by simp⟩
  | _ => cases hw

theorem Stage.of_hit {key id : String} (hs : Stage secret h w)
    (hmem : ⟨.lookUp key, .ok (some id)⟩ ∈ h) :
    w = .done (.ok ⟨id⟩) ∧ errandsOf h w = [.lookUp key] := by
  cases hs with
  | refused hs => cases hmem
  | asked hs hk => cases hmem
  | hit hs id' =>
    obtain ⟨rfl, rfl⟩ : key = secretKey secret ∧ id = id' := by simpa using hmem
    exact ⟨rfl, rfl⟩
  | missed hs hf => simp [Ne.symm (hf id)] at hmem
  | failed hs hf e => simp [Ne.symm (hf id)] at hmem
  | resolved hs hf client' => simp [Ne.symm (hf id)] at hmem
  | kept hs hf client' reply => simp [Ne.symm (hf id)] at hmem

theorem Stage.of_failed {s : String} {e : AccessError} (hs : Stage secret h w)
    (hmem : ⟨.resolve s, .error e⟩ ∈ h) :
    w = .done (.error .notFound) ∧
      errandsOf h w = [.lookUp (secretKey secret), .resolve secret] := by
  cases hs with
  | failed hs hf e => exact ⟨rfl, rfl⟩
  | _ => simp at hmem

theorem Stage.of_empty (hs : Stage "" h w) :
    h = [] ∧ w = .done (.error .missingCredential) := by
  cases hs with
  | refused hs => exact ⟨rfl, rfl⟩
  | _ => contradiction

theorem Stage.countP_isResolve_le (hs : Stage secret h w) :
    (errandsOf h w).countP Errand.isResolve ≤ 1 := by
  cases hs <;> simp [errandsOf, pending, identifyAnew, List.countP_cons, Errand.isResolve]

end Enquiry

/-- One call of `identify`: what it was told and when, when it last went on, and what it has left to
do, nothing when it crashed or was given up. -/
structure Enquiry where
  secret : String
  told : List (Nat × (e : Errand) × e.Reply) := []
  latest : Nat
  work : Option Enquiry.Work

namespace Enquiry

def heard (q : Enquiry) : History Errand Errand.Reply := q.told.map (·.2)

def goOn (q : Enquiry) (now : Nat) (e : Errand) (reply : e.Reply) (work : Work) : Enquiry :=
  { q with told := q.told ++ [(now, ⟨e, reply⟩)], latest := now, work := some work }

def giveUp (q : Enquiry) : Enquiry := { q with work := none }

def errands (q : Enquiry) : List Errand :=
  q.heard.map (·.1) ++ (q.work.map pending).getD []

def Stands (q : Enquiry) (w : Work) : Prop :=
  Stage q.secret q.heard w ∧ (q.work = some w ∨ q.work = none)

structure Extends (q' q : Enquiry) : Prop where
  secret : q'.secret = q.secret
  told : q.told <+: q'.told

variable {q : Enquiry} {w : Work}

theorem eq_of_work {v : Work} (h : q.work = some w ∨ q.work = none) (hv : q.work = some v) :
    w = v := by
  rcases h with hw | hw
  · exact Option.some.inj (hw.symm.trans hv)
  · rw [hw] at hv
    cases hv

theorem errands_sublist (h : q.Stands w) : q.errands.Sublist (errandsOf q.heard w) := by
  obtain ⟨-, hw | hw⟩ := h
  · rw [errands, hw]
    exact List.Sublist.refl _
  · rw [errands, hw]
    exact List.sublist_append_of_sublist_left (by simp)

theorem errands_of_done {x : Except AccessError ClientId} (h : q.Stands (.done x)) :
    q.errands = errandsOf q.heard (.done x) := by
  obtain ⟨-, hw | hw⟩ := h
  · rw [errands, hw]
    rfl
  · rw [errands, hw]
    rfl

theorem ne_ok_of_error {e : AccessError} (h : q.Stands (.done (.error e))) (id : ClientId) :
    q.work ≠ some (.done (.ok id)) :=
  fun hok => by cases eq_of_work h.2 hok

theorem mem_heard {t : Nat} {x : Σ e : Errand, e.Reply} (h : (t, x) ∈ q.told) : x ∈ q.heard :=
  List.mem_map_of_mem h

theorem Stands.errands_of_hit {t : Nat} {key id : String} (h : q.Stands w)
    (ht : (t, ⟨.lookUp key, .ok (some id)⟩) ∈ q.told) :
    w = .done (.ok ⟨id⟩) ∧ q.errands = [.lookUp key] := by
  obtain ⟨rfl, herrands⟩ := h.1.of_hit (mem_heard ht)
  exact ⟨rfl, (errands_of_done h).trans herrands⟩

theorem Stands.goOn {e : Errand} {k : e.Reply → Work} (h : q.Stands w)
    (hw : q.work = some (.call () e k)) (now : Nat) (reply : e.Reply) :
    (q.goOn now e reply (k reply)).Stands (k reply) := by
  obtain ⟨hs, hwork⟩ := h
  have hcall : w = .call () e k := eq_of_work hwork hw
  refine ⟨?_, .inl rfl⟩
  simpa only [heard, Enquiry.goOn, List.map_append, List.map_cons, List.map_nil] using
    hs.told hcall reply

theorem Stands.giveUp (h : q.Stands w) : q.giveUp.Stands w := ⟨h.1, .inr rfl⟩

theorem extends_refl (q : Enquiry) : q.Extends q := ⟨rfl, List.prefix_refl _⟩

theorem extends_giveUp (q : Enquiry) : q.giveUp.Extends q := ⟨rfl, List.prefix_refl _⟩

theorem extends_goOn (q : Enquiry) (now : Nat) (e : Errand) (reply : e.Reply) (work : Work) :
    (q.goOn now e reply work).Extends q := ⟨rfl, List.prefix_append _ _⟩

end Enquiry

/-- The enquiries about secrets, the cache that they share, and the time. -/
structure ConcurrentEnquiries where
  cache : Cache := {}
  now : Nat := 0
  enquiries : List Enquiry := []

namespace ConcurrentEnquiries

/-- How an errand may be answered, and the cache afterwards. The store may say anything. -/
inductive Answers (ttl : Duration) (now : Nat) (c : Cache) : (e : Errand) → e.Reply → Cache → Prop
  | lookUp {key : String} {reply : Except CacheError (Option String)} {c' : Cache}
      (h : c.get now key = (c', reply)) : Answers ttl now c (.lookUp key) reply c'
  | resolve (secret : String) (answer : Except AccessError ClientId) :
      Answers ttl now c (.resolve secret) answer c
  | keep {key : String} {client : ClientId} {reply : Except CacheError Unit} {c' : Cache}
      (h : c.set now key client.text ttl = (c', .answer reply)) :
      Answers ttl now c (.keep key client) reply c'

theorem answers_registrar {r r' : Registrar} {now : Nat} {e : Errand} {reply : e.Reply}
    (h : r.answer now e = (r', .answer reply)) : Answers r.ttl now r.cache e reply r'.cache := by
  cases e with
  | lookUp key =>
    cases h
    exact .lookUp rfl
  | resolve secret =>
    cases h
    exact .resolve secret _
  | keep key client =>
    simp only [Registrar.answer, Prod.mk.injEq] at h
    obtain ⟨rfl, hreply⟩ := h
    exact .keep (Prod.ext rfl hreply)

theorem Answers.of_hit {ttl : Duration} {now : Nat} {c c' : Cache} {e : Errand} {reply : e.Reply}
    {key id : String} (h : Answers ttl now c e reply c')
    (heq : (⟨e, reply⟩ : Σ e : Errand, e.Reply) = ⟨.lookUp key, .ok (some id)⟩) :
    ∃ x ∈ c.entries, x.key = key ∧ x.value = id ∧ now < x.deadline := by
  cases h with
  | lookUp hget =>
    simp only [Sigma.mk.injEq, Errand.lookUp.injEq, heq_eq_eq] at heq
    obtain ⟨rfl, rfl⟩ := heq
    exact Cache.exists_of_get_eq_some (congrArg Prod.snd hget)
  | resolve secret answer => simp at heq
  | keep hset => simp at heq

inductive Move
  | ask (secret : String)
  | errand (i : Nat) (e : Errand)
  | crash (i : Nat)
  | giveUp (i : Nat)
  | wait (nanos : Nat)

inductive Step (ttl : Duration) (d : ConcurrentEnquiries) : Move → ConcurrentEnquiries → Prop
  | ask (secret : String) :
      Step ttl d (.ask secret) { d with
        enquiries := d.enquiries ++ [⟨secret, [], d.now, some (identify secret)⟩] }
  | errand {i : Nat} {q : Enquiry} {e : Errand} {k : e.Reply → Enquiry.Work} {reply : e.Reply}
      {c : Cache} (hi : d.enquiries[i]? = some q) (hw : q.work = some (.call () e k))
      (ha : Answers ttl d.now d.cache e reply c) :
      Step ttl d (.errand i e) { d with
        cache := c, enquiries := d.enquiries.set i (q.goOn d.now e reply (k reply)) }
  | crash {i : Nat} {q : Enquiry} {key : String} {client : ClientId}
      {k : Except CacheError Unit → Enquiry.Work} {c : Cache} (hi : d.enquiries[i]? = some q)
      (hw : q.work = some (.call () (.keep key client) k))
      (ha : d.cache.set d.now key client.text ttl = (c, .crash)) :
      Step ttl d (.crash i) { d with
        cache := c, enquiries := d.enquiries.set i q.giveUp }
  | giveUp {i : Nat} {q : Enquiry} (hi : d.enquiries[i]? = some q) :
      Step ttl d (.giveUp i) { d with enquiries := d.enquiries.set i q.giveUp }
  | wait (nanos : Nat) : Step ttl d (.wait nanos) { d with now := d.now + nanos }

inductive Run (ttl : Duration) : ConcurrentEnquiries → Prop
  | start : Run ttl {}
  | step {d d' : ConcurrentEnquiries} {m : Move} (h : Run ttl d) (hs : d.Step ttl m d') : Run ttl d'

variable {ttl : Duration} {d d' : ConcurrentEnquiries} {m : Move}

/-- The enquiry `j` is about the secret, the store told it the client, and it wrote that to the
cache at the time `w`. -/
def Wrote (d : ConcurrentEnquiries) (j : Nat) (secret : String) (client : ClientId) (w : Nat) :
    Prop :=
  ∃ q t, d.enquiries[j]? = some q ∧ q.secret = secret ∧
    (t, ⟨.resolve secret, .ok client⟩) ∈ q.told ∧
    (w, ⟨.keep (secretKey secret) client, .ok ()⟩) ∈ q.told

theorem Wrote.mono {j : Nat} {secret : String} {client : ClientId} {w : Nat}
    (h : d.Wrote j secret client w)
    (hgrows : ∀ (i : Nat) (q : Enquiry), d.enquiries[i]? = some q →
      ∃ q' : Enquiry, d'.enquiries[i]? = some q' ∧ q'.Extends q) :
    d'.Wrote j secret client w := by
  obtain ⟨q, t, hq, hsecret, hresolved, hkept⟩ := h
  obtain ⟨q', hq', hext⟩ := hgrows j q hq
  exact ⟨q', t, hq', hext.secret.trans hsecret, hext.told.subset hresolved, hext.told.subset hkept⟩

theorem exists_extends_set {l : List Enquiry} {i j : Nat} {q q' x : Enquiry} (hi : l[i]? = some q)
    (hext : q'.Extends q) (hx : l[j]? = some x) :
    ∃ x', (l.set i q')[j]? = some x' ∧ x'.Extends x := by
  by_cases hij : i = j
  · subst hij
    rw [hi] at hx
    cases hx
    exact ⟨q', List.getElem?_set_self (List.getElem?_eq_some_iff.1 hi).1, hext⟩
  · exact ⟨x, by rw [List.getElem?_set_ne hij, hx], x.extends_refl⟩

theorem Step.grows (h : d.Step ttl m d') (i : Nat) (q : Enquiry) (hq : d.enquiries[i]? = some q) :
    ∃ q', d'.enquiries[i]? = some q' ∧ q'.Extends q := by
  cases h with
  | ask secret =>
    refine ⟨q, ?_, q.extends_refl⟩
    rw [List.getElem?_append_left (List.getElem?_eq_some_iff.1 hq).1, hq]
  | errand hi hw ha => exact exists_extends_set hi (Enquiry.extends_goOn _ _ _ _ _) hq
  | crash hi hw ha => exact exists_extends_set hi (Enquiry.extends_giveUp _) hq
  | giveUp hi => exact exists_extends_set hi (Enquiry.extends_giveUp _) hq
  | wait nanos => exact ⟨q, hq, q.extends_refl⟩

structure Sound (ttl : Duration) (d : ConcurrentEnquiries) : Prop where
  stands : ∀ q ∈ d.enquiries, ∃ w, q.Stands w
  entry : ∀ e ∈ d.cache.entries, ∃ j secret client w, d.Wrote j secret client w ∧ w ≤ d.now ∧
    e = ⟨secretKey secret, client.text, w + ttl.nanos⟩
  hit : ∀ q ∈ d.enquiries, ∀ t id, (t, ⟨.lookUp (secretKey q.secret), .ok (some id)⟩) ∈ q.told →
    t = q.latest ∧ ∃ j w, d.Wrote j q.secret ⟨id⟩ w ∧ w ≤ t ∧ t < w + ttl.nanos

theorem Sound.set (h : Sound ttl d) {i : Nat} {q q' : Enquiry} {c : Cache}
    (hi : d.enquiries[i]? = some q) (hext : q'.Extends q) (hstands : ∃ w, q'.Stands w)
    (hentry : ∀ e ∈ c.entries, e ∈ d.cache.entries ∨ ∃ j secret client,
      Wrote { d with cache := c, enquiries := d.enquiries.set i q' } j secret client d.now ∧
        e = ⟨secretKey secret, client.text, d.now + ttl.nanos⟩)
    (hhit : ∀ t id, (t, ⟨.lookUp (secretKey q'.secret), .ok (some id)⟩) ∈ q'.told →
      t = q'.latest ∧ ((t, ⟨.lookUp (secretKey q.secret), .ok (some id)⟩) ∈ q.told ∨
        t = d.now ∧ ∃ e ∈ d.cache.entries,
          e.key = secretKey q.secret ∧ e.value = id ∧ t < e.deadline)) :
    Sound ttl { d with cache := c, enquiries := d.enquiries.set i q' } := by
  have hmono : ∀ {j secret client w}, d.Wrote j secret client w →
      Wrote { d with cache := c, enquiries := d.enquiries.set i q' } j secret client w :=
    fun hw => hw.mono fun _ _ hq => exists_extends_set hi hext hq
  have hmem : q ∈ d.enquiries := List.mem_of_getElem? hi
  refine ⟨fun x hx => ?_, fun e he => ?_, fun x hx t id ht => ?_⟩
  · rcases List.mem_or_eq_of_mem_set hx with hx | rfl
    · exact h.stands x hx
    · exact hstands
  · rcases hentry e he with he | ⟨j, secret, client, hw, rfl⟩
    · obtain ⟨j, secret, client, w, hw, hle, rfl⟩ := h.entry e he
      exact ⟨j, secret, client, w, hmono hw, hle, rfl⟩
    · exact ⟨j, secret, client, d.now, hw, Nat.le_refl _, rfl⟩
  · rcases List.mem_or_eq_of_mem_set hx with hx | rfl
    · obtain ⟨hlatest, j, w, hw, hle, hlt⟩ := h.hit x hx t id ht
      exact ⟨hlatest, j, w, hmono hw, hle, hlt⟩
    · obtain ⟨hlatest, hold | ⟨rfl, e, he, hkey, hvalue, hlive⟩⟩ := hhit t id ht
      · obtain ⟨-, j, w, hw, hle, hlt⟩ := h.hit q hmem t id hold
        rw [hext.secret]
        exact ⟨hlatest, j, w, hmono hw, hle, hlt⟩
      · obtain ⟨j, secret, client, w, hw, hle, rfl⟩ := h.entry e he
        obtain rfl : secret = q.secret := secretKey_inj hkey
        obtain rfl : client.text = id := hvalue
        rw [hext.secret]
        exact ⟨hlatest, j, w, hmono hw, hle, hlive⟩

theorem Sound.giveUp (h : Sound ttl d) {i : Nat} {q : Enquiry} {c : Cache}
    (hi : d.enquiries[i]? = some q) (hc : ∀ e ∈ c.entries, e ∈ d.cache.entries) :
    Sound ttl { d with cache := c, enquiries := d.enquiries.set i q.giveUp } := by
  have hmem : q ∈ d.enquiries := List.mem_of_getElem? hi
  obtain ⟨w, hw⟩ := h.stands q hmem
  refine h.set hi q.extends_giveUp ⟨w, hw.giveUp⟩ (fun e he => .inl (hc e he)) fun t id ht => ?_
  exact ⟨(h.hit q hmem t id ht).1, .inl ht⟩

theorem Sound.no_hit (h : Sound ttl d) {q : Enquiry} {e : Errand} {k : e.Reply → Enquiry.Work}
    (hq : q ∈ d.enquiries) (hw : q.work = some (.call () e k)) {t : Nat} {key id : String} :
    (t, ⟨.lookUp key, .ok (some id)⟩) ∉ q.told := by
  intro ht
  obtain ⟨w, hstands⟩ := h.stands q hq
  obtain ⟨rfl, -⟩ := hstands.errands_of_hit ht
  cases Enquiry.eq_of_work hstands.2 hw

theorem Sound.errand (h : Sound ttl d) {i : Nat} {q : Enquiry} {e : Errand}
    {k : e.Reply → Enquiry.Work} {reply : e.Reply} {c : Cache} (hi : d.enquiries[i]? = some q)
    (hw : q.work = some (.call () e k)) (ha : Answers ttl d.now d.cache e reply c) :
    Sound ttl { d with
      cache := c, enquiries := d.enquiries.set i (q.goOn d.now e reply (k reply)) } := by
  have hmem : q ∈ d.enquiries := List.mem_of_getElem? hi
  obtain ⟨w, hstands⟩ := h.stands q hmem
  have hnext := hstands.goOn hw d.now reply
  refine h.set hi (q.extends_goOn _ _ _ _) ⟨_, hnext⟩ (fun x hx => ?_) fun t id ht => ?_
  · cases ha with
    | lookUp hget => exact .inl (Cache.mem_of_mem_get hget hx)
    | resolve secret answer => exact .inl hx
    | @keep key client reply _ hset =>
      rcases Cache.mem_of_mem_set hset hx with hx | ⟨hreply, rfl⟩
      · exact .inl hx
      · -- The entry written now is backed by the enquiry itself, which the store has told.
        cases hreply
        obtain ⟨hs, hwork⟩ := hstands
        obtain ⟨rfl, hresolved⟩ := hs.of_keep (Enquiry.eq_of_work hwork hw)
        obtain ⟨⟨t, x⟩, ht, rfl⟩ := List.mem_map.1 hresolved
        have hlt : i < d.enquiries.length := (List.getElem?_eq_some_iff.1 hi).1
        refine .inr ⟨i, q.secret, client, ⟨_, t, List.getElem?_set_self hlt, rfl, ?_, ?_⟩, rfl⟩
        · exact List.mem_append_left _ ht
        · exact List.mem_append_right _ List.mem_cons_self
  · rcases List.mem_append.1 ht with ht | ht
    · exact absurd ht (h.no_hit hmem hw)
    · simp only [List.mem_singleton, Prod.mk.injEq] at ht
      obtain ⟨rfl, heq⟩ := ht
      exact ⟨rfl, .inr ⟨rfl, ha.of_hit heq.symm⟩⟩

theorem Step.sound (hs : d.Step ttl m d') (h : Sound ttl d) : Sound ttl d' := by
  cases hs with
  | ask secret =>
    have hgrows := @Step.grows ttl d _ _ (.ask secret)
    refine ⟨fun q hq => ?_, fun e he => ?_, fun q hq t id ht => ?_⟩
    · rcases List.mem_append.1 hq with hq | hq
      · exact h.stands q hq
      · obtain rfl := List.mem_singleton.1 hq
        exact ⟨_, Enquiry.stage_identify secret, .inl rfl⟩
    · obtain ⟨j, s, client, w, hw, hrest⟩ := h.entry e he
      exact ⟨j, s, client, w, hw.mono hgrows, hrest⟩
    · rcases List.mem_append.1 hq with hq | hq
      · obtain ⟨hlatest, j, w, hw, hrest⟩ := h.hit q hq t id ht
        exact ⟨hlatest, j, w, hw.mono hgrows, hrest⟩
      · obtain rfl := List.mem_singleton.1 hq
        cases ht
  | errand hi hw ha => exact h.errand hi hw ha
  | @crash i q key client k c hi hw hset =>
    refine h.giveUp hi fun e he => ?_
    rcases Cache.mem_of_mem_set hset he with he | ⟨hreply, -⟩
    · exact he
    · cases hreply
  | giveUp hi => exact h.giveUp hi fun _ he => he
  | wait nanos =>
    refine ⟨h.stands, fun e he => ?_, h.hit⟩
    obtain ⟨j, s, client, w, hw, hle, rfl⟩ := h.entry e he
    exact ⟨j, s, client, w, hw, Nat.le_trans hle (Nat.le_add_right _ _), rfl⟩

theorem Run.sound (h : Run ttl d) : Sound ttl d := by
  induction h with
  | start => exact ⟨by simp, by simp, by simp⟩
  | step h hs ih => exact hs.sound ih

theorem Answers.find?_eq {now : Nat} {c c' : Cache} {e : Errand} {reply : e.Reply}
    (h : Answers ttl now c e reply c') (hkeep : e.isKeep = false) {key : String}
    {x : Cache.Entry} (hx : c.find? key = some x) (hlive : now < x.deadline) :
    c'.find? key = some x := by
  cases h with
  | lookUp hget => exact Cache.find?_get hget hx hlive
  | resolve secret answer => exact hx
  | keep hset => cases hkeep

/-- Whoever is found for a secret was named by the store for that secret, to this enquiry or to one
that wrote the answer less than the lifetime of an entry ago. An enquiry that the store fails writes
nothing, and one about no secret asks nobody. -/
theorem identities_fresh (h : Run ttl d) :
    (∀ (i : Nat) (q : Enquiry) (id : ClientId), d.enquiries[i]? = some q →
      q.work = some (.done (.ok id)) →
      (∃ t, (t, ⟨.resolve q.secret, .ok id⟩) ∈ q.told) ∨
        ∃ j w, j ≠ i ∧ d.Wrote j q.secret id w ∧ w ≤ q.latest ∧ q.latest < w + ttl.nanos) ∧
    (∀ q ∈ d.enquiries, ∀ t e, (t, ⟨.resolve q.secret, .error e⟩) ∈ q.told →
      q.errands = [.lookUp (secretKey q.secret), .resolve q.secret] ∧
        ∀ id, q.work ≠ some (.done (.ok id))) ∧
    (∀ i e d', d.Step ttl (.errand i e) d' → e.isKeep = false → ∀ key x,
      d.cache.find? key = some x → d.now < x.deadline → d'.cache.find? key = some x) ∧
    (∀ q ∈ d.enquiries, q.secret = "" →
      q.errands = [] ∧ ∀ id, q.work ≠ some (.done (.ok id))) ∧
    (∀ q ∈ d.enquiries, q.errands.countP Errand.isResolve ≤ 1 ∧
      ∀ t key id, (t, ⟨.lookUp key, .ok (some id)⟩) ∈ q.told → q.errands = [.lookUp key]) := by
  have hsound := h.sound
  refine ⟨fun i q id hi hw => ?_, fun q hq t e ht => ?_, fun i e d' hs hkeep key x hx hlive => ?_,
    fun q hq hempty => ?_, fun q hq => ?_⟩
  · have hq : q ∈ d.enquiries := List.mem_of_getElem? hi
    obtain ⟨w, hstands⟩ := hsound.stands q hq
    rcases hstands.1.of_done (Enquiry.eq_of_work hstands.2 hw) with hhit | hresolved
    · right
      obtain ⟨⟨t, x⟩, ht, rfl⟩ := List.mem_map.1 hhit
      obtain ⟨rfl, j, w', hwrote, hle, hlt⟩ := hsound.hit q hq t id.text ht
      refine ⟨j, w', ?_, hwrote, hle, hlt⟩
      -- An enquiry that finds an entry runs nothing but the look-up, so another one wrote it.
      rintro rfl
      obtain ⟨q', t', hq', hsecret, -, hkeep⟩ := hwrote
      obtain rfl : q = q' := Option.some.inj (hi.symm.trans hq')
      have hmem : .keep (secretKey q.secret) ⟨id.text⟩ ∈ q.errands :=
        List.mem_append_left _ (List.mem_map_of_mem (Enquiry.mem_heard hkeep))
      rw [(hstands.errands_of_hit ht).2] at hmem
      simp at hmem
    · left
      obtain ⟨⟨t, x⟩, ht, rfl⟩ := List.mem_map.1 hresolved
      exact ⟨t, ht⟩
  · obtain ⟨w, hstands⟩ := hsound.stands q hq
    obtain ⟨rfl, herrands⟩ := hstands.1.of_failed (Enquiry.mem_heard ht)
    exact ⟨(Enquiry.errands_of_done hstands).trans herrands, Enquiry.ne_ok_of_error hstands⟩
  · cases hs with
    | errand hi hw ha => exact ha.find?_eq hkeep hx hlive
  · obtain ⟨w, hstands⟩ := hsound.stands q hq
    have hstage := hstands.1
    rw [hempty] at hstage
    obtain ⟨hnone, rfl⟩ := hstage.of_empty
    refine ⟨?_, Enquiry.ne_ok_of_error hstands⟩
    rw [Enquiry.errands_of_done hstands, hnone]
    rfl
  · obtain ⟨w, hstands⟩ := hsound.stands q hq
    refine ⟨?_, fun t key id ht => (hstands.errands_of_hit ht).2⟩
    exact Nat.le_trans (Enquiry.errands_sublist hstands).countP_le hstands.1.countP_isResolve_le

theorem identities_fresh_of_second_enquiry :
    ∃ d q, Run (.ofSecs 600) d ∧ d.enquiries[1]? = some q ∧
      q.work = some (.done (.ok ⟨"A"⟩)) ∧ ∃ j w, j ≠ 1 ∧ d.Wrote j "s" ⟨"A"⟩ w ∧
        w ≤ q.latest ∧ q.latest < w + (Duration.ofSecs 600).nanos := by
  obtain ⟨k, hask, hmiss, hhit⟩ : ∃ k : Except CacheError (Option String) → Enquiry.Work,
      identify "s" = .call () (.lookUp (secretKey "s")) k ∧ k (.ok none) = identifyAnew "s" ∧
        k (.ok (some "A")) = .done (.ok ⟨"A"⟩) := ⟨_, if_neg (by decide), rfl, rfl⟩
  have hsoon : 0 + (Duration.ofSecs 600).nanos < Cache.endOfTime := by decide
  have hlive : 0 + 599 < 0 + (Duration.ofSecs 600).nanos := by decide
  have run : Run (.ofSecs 600) _ := .step (.step .start (.ask "s")) (.ask "s")
  have run := run.step (.errand (i := 0) rfl (congrArg some hask) (.lookUp rfl))
  have run := run.step (.errand (i := 0) rfl (congrArg some hmiss) (.resolve "s" (.ok ⟨"A"⟩)))
  have run := run.step (.errand (i := 0) rfl rfl (.keep (Cache.set_of_lt rfl hsoon)))
  have run := run.step (.wait 599)
  have run := run.step (.errand (i := 1) rfl (congrArg some hask)
    (.lookUp (Cache.get_of_find? rfl (List.find?_cons_of_pos (beq_self_eq_true _)) hlive)))
  have hwork := congrArg some hhit
  refine ⟨_, _, run, rfl, hwork, ?_⟩
  rcases (identities_fresh run).1 1 _ ⟨"A"⟩ rfl hwork with ⟨t, ht⟩ | fresh
  · cases ht with
    | tail _ ht => cases ht
  · exact fresh

end ConcurrentEnquiries

end DeviceGateway
