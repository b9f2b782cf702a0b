import DeviceGateway.Proofs.Access.Remembering
import DeviceGateway.Proofs.Config.Settings

/-!
# A lifetime that reaches past the end of time

A configuration may give the entries of the cache any number of seconds that fits 64 bits. With
about half of these numbers the deadline of an entry is a time that no clock shows, and the first
enquiry that the store answers crashes when it comes to keep the answer. The cache is of no use from
then on, and all later enquiries are answered by the store.
-/

namespace DeviceGateway

namespace Cache
variable {c c' : Cache} {now : Nat} {key value : String} {ttl : Duration}

theorem get_of_poisoned (h : c.poisoned = true) : c.get now key = (c, .error poisonedError) :=
  if_pos h

theorem set_of_poisoned (h : c.poisoned = true) :
    c.set now key value ttl = (c, .answer (.error poisonedError)) := if_pos h

theorem sound_of_get_eq_ok {found : Option String} (h : (c.get now key).2 = .ok found) :
    c.poisoned = false := by
  cases hp : c.poisoned with
  | false => rfl
  | true =>
    rw [get_of_poisoned hp] at h
    cases h

theorem get_eq_ok_none (hp : c.poisoned = false)
    (hmiss : ∀ value, (c.get now key).2 ≠ .ok (some value)) : (c.get now key).2 = .ok none := by
  cases hfind : c.find? key with
  | none => simp [get, hp, hfind]
  | some e =>
    by_cases hlive : now < e.deadline
    · exact absurd (congrArg Prod.snd (get_of_find? hp hfind hlive)) (hmiss e.value)
    · simp [get, hp, hfind, hlive]

theorem set_eq_crash_iff :
    (c.set now key value ttl).2 = .crash ↔
      c.poisoned = false ∧ endOfTime ≤ now + ttl.nanos := by
  rw [set]
  split
  · rename_i hp
    simp [hp]
  · rename_i hp
    split
    · rename_i hend
      simp [hp, hend]
    · rename_i hend
      simp [hp, hend]

theorem poisoned_of_set_eq_crash (h : c.set now key value ttl = (c', .crash)) :
    c'.poisoned = true := by
  simp only [set] at h
  split at h
  · cases h
  · split at h
    · cases h
      rfl
    · cases h

end Cache

def Config.registrar (c : Config) : Registrar := { store := c.identityStore, ttl := c.cacheTtl }

namespace Registrar

def after (r : Registrar) (enquiries : List (Nat × String)) : Registrar :=
  enquiries.foldl (fun r q => (r.identify q.1 q.2).1) r

variable {r : Registrar} {config : Config} {now : Nat} {secret : String} {client : ClientId}

theorem after_keeps {I : Registrar → Prop} (h : ∀ r now secret, I r → I (r.identify now secret).1)
    (hr : I r) (enquiries : List (Nat × String)) : I (r.after enquiries) := by
  induction enquiries generalizing r with
  | nil => exact hr
  | cons q enquiries ih => exact ih (h r q.1 q.2 hr)

/-- The registrar is that of the configuration, and its cache holds only what the store says. -/
structure Faithful (config : Config) (r : Registrar) : Prop where
  store : r.store = config.identityStore
  ttl : r.ttl = config.cacheTtl
  entry : ∀ e ∈ r.cache.entries, ∃ secret client, e.key = secretKey secret ∧
    r.store.identify secret = .ok client ∧ e.value = client.text

theorem faithful_start (config : Config) : Faithful config config.registrar :=
  ⟨rfl, rfl, fun _ he => absurd he List.not_mem_nil⟩

theorem dealt_identify (r : Registrar) (now : Nat) (secret : String) :
    ∃ p result, r.identify now secret = ({ r with cache := p.cache }, result) ∧
      LookupState.Dealt r.ttl { cache := r.cache, now := now } ⟨0, secret, 0, r.store.identify⟩ p
        result := by
  obtain ⟨hresult, hnext⟩ := LookupState.identify_eq_receive r now secret
  obtain ⟨p, result, hvisit, hd⟩ := LookupState.dealt_receive r.ttl { cache := r.cache, now := now }
    ⟨0, secret, 0, r.store.identify⟩
  rw [hvisit] at hresult hnext
  exact ⟨p, result, Prod.ext hnext hresult, hd⟩

theorem Faithful.identify (r : Registrar) (now : Nat) (secret : String) (h : Faithful config r) :
    Faithful config (r.identify now secret).1 := by
  obtain ⟨p, result, heq, hd⟩ := dealt_identify r now secret
  rw [heq]
  refine ⟨h.store, h.ttl, fun e he => ?_⟩
  cases hd with
  | refused hs => exact h.entry e he
  | hit hs hget => exact h.entry e (Cache.mem_of_mem_get hget he)
  | failed hs hget hmiss hv => exact h.entry e (Cache.mem_of_mem_get hget he)
  | kept hs hget hmiss hv hset =>
    rcases Cache.mem_of_mem_set hset he with he | ⟨-, rfl⟩
    · exact h.entry e (Cache.mem_of_mem_get hget he)
    · exact ⟨secret, _, rfl, hv, rfl⟩
  | crashed hs hget hmiss hv hset =>
    rcases Cache.mem_of_mem_set hset he with he | ⟨hreply, -⟩
    · exact h.entry e (Cache.mem_of_mem_get hget he)
    · cases hreply

theorem Faithful.answer (h : Faithful config r) (now : Nat) (hs : secret ≠ "")
    (hstore : config.identityStore.identify secret = .ok client) :
    (r.identify now secret).2 =
      if (r.cache.get now (secretKey secret)).2 = .ok none ∧
        Cache.endOfTime ≤ now + config.cacheTtl.nanos
      then .crash else .answer (.ok client) := by
  rw [← h.store] at hstore
  rw [← h.ttl]
  obtain ⟨p, result, heq, hd⟩ := dealt_identify r now secret
  rw [heq]
  cases hd with
  | refused hs' => exact absurd hs' hs
  | @hit _ c id hget =>
    have hget : r.cache.get now (secretKey secret) = (c, .ok (some id)) := hget
    obtain ⟨e, he, hkey, rfl, -⟩ := Cache.exists_of_get_eq_some (congrArg Prod.snd hget)
    obtain ⟨s, client', hkey', hclient, hvalue⟩ := h.entry e he
    obtain rfl : s = secret := secretKey_inj (hkey'.symm.trans hkey)
    rw [hstore] at hclient
    cases hclient
    simp [hget, hvalue]
  | failed hs hget hmiss hv => cases hstore.symm.trans hv
  | @kept _ c c' found hget hmiss client' hv reply hset =>
    have hget : r.cache.get now (secretKey secret) = (c, found) := hget
    cases hstore.symm.trans hv
    refine (if_neg fun ⟨hnone, hend⟩ => ?_).symm
    have hp := Cache.poisoned_get r.cache now (secretKey secret)
    rw [Cache.sound_of_get_eq_ok hnone, hget] at hp
    have hcrash : (c.set now (secretKey secret) client.text r.ttl).2 = .crash :=
      Cache.set_eq_crash_iff.2 ⟨hp, hend⟩
    cases (congrArg Prod.snd hset).symm.trans hcrash
  | @crashed _ c c' found hget hmiss client' hv hset =>
    have hget : r.cache.get now (secretKey secret) = (c, found) := hget
    have hcrash : (c.set now (secretKey secret) client'.text r.ttl).2 = .crash :=
      congrArg Prod.snd hset
    obtain ⟨hc, hend⟩ := Cache.set_eq_crash_iff.1 hcrash
    have hp := Cache.poisoned_get r.cache now (secretKey secret)
    rw [hget, hc] at hp
    refine (if_pos ⟨Cache.get_eq_ok_none hp.symm ?_, hend⟩).symm
    rw [hget]
    exact hmiss

theorem poisoned_identify (r : Registrar) (now : Nat) (secret : String)
    (hr : r.cache.poisoned = true) : (r.identify now secret).1.cache.poisoned = true := by
  refine Activity.run_keeps (I := fun r : Registrar => r.cache.poisoned = true) ?_ _ hr
  intro r e hr
  cases e with
  | lookUp key => exact (congrArg (·.1.poisoned) (Cache.get_of_poisoned hr)).trans hr
  | resolve secret => exact hr
  | keep key client => exact (congrArg (·.1.poisoned) (Cache.set_of_poisoned hr)).trans hr

theorem poisoned_of_crash (h : (r.identify now secret).2 = .crash) :
    (r.identify now secret).1.cache.poisoned = true := by
  obtain ⟨p, result, heq, hd⟩ := dealt_identify r now secret
  rw [heq] at h ⊢
  cases hd with
  | crashed hs hget hmiss hv hset => exact Cache.poisoned_of_set_eq_crash hset
  | _ => cases h

/-- Of a secret that the store knows the store's client is found, unless no entry answers and a new
one would end past the end of time. Then the enquiry crashes, and it is the last one to do so. Any
number of seconds that fits 64 bits is accepted as a lifetime, and no other. -/
theorem crashes_iff_past_end_of_time {lookup : String → Option String}
    (hconfig : Config.ofLookup lookup = .ok config) (earlier : List (Nat × String)) (now : Nat)
    (hstore : config.identityStore.identify secret = .ok client) :
    let r := config.registrar.after earlier
    ((r.identify now secret).2 =
      if (r.cache.get now (secretKey secret)).2 = .ok none ∧
        Cache.endOfTime ≤ now + config.cacheTtl.nanos
      then .crash else .answer (.ok client)) ∧
    ((r.identify now secret).2 = .crash →
      ∀ (later : List (Nat × String)) (t : Nat) (s : String) (c : ClientId),
        config.identityStore.identify s = .ok c →
        (((r.identify now secret).1.after later).identify t s).2 = .answer (.ok c)) ∧
    (∃ n < UInt64.size, config.cacheTtl = .ofSecs n) ∧
    ∀ n < UInt64.size, Config.ofLookup (Config.put lookup "AUTH_CACHE_TTL_SECS" (Nat.repr n)) =
      .ok { config with cacheTtl := .ofSecs n } := by
  intro r
  have hr : Faithful config r := after_keeps Faithful.identify (faithful_start config) earlier
  have hanswer := hr.answer now (Config.ne_of_identify_eq_ok hconfig hstore) hstore
  refine ⟨hanswer, ?_, Config.exists_ttl_eq_ofSecs hconfig,
    fun n => Config.ofLookup_put_ttl hconfig⟩
  intro hcrash later t s c hs
  let r' := (r.identify now secret).1.after later
  have hr' : Faithful config r' := after_keeps Faithful.identify (hr.identify r now secret) later
  have hp : r'.cache.poisoned = true :=
    after_keeps (I := fun r => r.cache.poisoned = true) poisoned_identify
      (poisoned_of_crash hcrash) later
  have hlater := hr'.answer t (Config.ne_of_identify_eq_ok hconfig hs) hs
  rw [Cache.get_of_poisoned hp, if_neg (by simp)] at hlater
  exact hlater

def lasting : String → Option String :=
  Config.put (Config.put (fun _ => none) "THINGS" "s3cr3t=thing-A") "AUTH_CACHE_TTL_SECS"
    "18446744073709551615"

def lastingConfig : Config :=
  { cacheTtl := .ofSecs 18446744073709551615, things := [("s3cr3t", ⟨"thing-A"⟩)] }

theorem ofLookup_lasting : Config.ofLookup lasting = .ok lastingConfig := by decide

theorem crashes_iff_past_end_of_time_of_lasting :
    Config.ofLookup lasting = .ok lastingConfig ∧
      (lastingConfig.registrar.identify 0 "s3cr3t").2 = .crash ∧
      ((lastingConfig.registrar.identify 0 "s3cr3t").1.identify 1 "s3cr3t").2 =
        .answer (.ok ⟨"thing-A"⟩) := by
  have hstore : lastingConfig.identityStore.identify "s3cr3t" = .ok ⟨"thing-A"⟩ := by decide
  obtain ⟨hanswer, hlater, -⟩ := crashes_iff_past_end_of_time ofLookup_lasting [] 0 hstore
  have hcrash := hanswer.trans (if_pos ⟨rfl, by decide⟩)
  exact ⟨ofLookup_lasting, hcrash, hlater hcrash [] 1 "s3cr3t" ⟨"thing-A"⟩ hstore⟩

theorem longest_lifetime_crashes :
    Config.ofLookup lasting = .ok lastingConfig ∧
      lastingConfig.identityStore.identify "s3cr3t" = .ok ⟨"thing-A"⟩ ∧
      (lastingConfig.registrar.identify 0 "s3cr3t").2 = .crash :=
  ⟨ofLookup_lasting, by decide, rfl⟩

end Registrar

end DeviceGateway
