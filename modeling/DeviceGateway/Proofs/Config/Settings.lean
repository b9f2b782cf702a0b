import DeviceGateway.Config
import DeviceGateway.Proofs.Json.Digits

/-!
# What a configuration is read from

A configuration is accepted when each of its settings can be read, and then it has what was read.
The settings do not depend on each other, so a variable that is given a new value changes its own
setting only.
-/

namespace DeviceGateway

theorem bind_eq_ok {ε α β : Type} {x : Except ε α} {f : α → Except ε β} {b : β} :
    x >>= f = .ok b ↔ ∃ a, x = .ok a ∧ f a = .ok b := by
  cases x with
  | error e => simp [bind, Except.bind]
  | ok a => simp [bind, Except.bind]

theorem exists_of_mem_mapM {ε α β : Type} {f : α → Except ε β} {as : List α} {bs : List β}
    (h : as.mapM f = .ok bs) {b : β} (hb : b ∈ bs) : ∃ a ∈ as, f a = .ok b := by
  induction as generalizing bs with
  | nil =>
    cases h
    cases hb
  | cons a as ih =>
    rw [List.mapM_cons] at h
    obtain ⟨b', hb', h⟩ := bind_eq_ok.1 h
    obtain ⟨bs', hbs', h⟩ := bind_eq_ok.1 h
    cases h
    rcases List.mem_cons.1 hb with rfl | hb
    · exact ⟨a, List.mem_cons_self, hb'⟩
    · obtain ⟨a', ha', heq⟩ := ih hbs' hb
      exact ⟨a', List.mem_cons_of_mem _ ha', heq⟩

namespace Text
variable {limit n : Nat} {s : List Char} {c : Char}

theorem natural_le (h : natural limit s = .ok n) : n ≤ limit := by
  rw [natural.eq_def] at h
  split at h
  · cases h
  · cases h
  · exact naturalFrom_le (Nat.zero_le _) h
  · exact naturalFrom_le (Nat.zero_le _) h

theorem natural_of_digits (hne : s ≠ []) (hdigit : ∀ c ∈ s, c.isDigit = true)
    (h : Nat.ofDigitChars 10 s 0 ≤ limit) : natural limit s = .ok (Nat.ofDigitChars 10 s 0) := by
  have hread := naturalFrom_eq_ofDigitChars hdigit h
  cases s with
  | nil => exact absurd rfl hne
  | cons c s =>
    have hplus : c ≠ '+' := by
      rintro rfl
      cases hdigit '+' List.mem_cons_self
    rw [natural]
    · exact hread
    · exact List.cons_ne_nil c s
    · intro heq
      cases heq
      exact hplus rfl
    · intro rest heq
      cases heq
      exact hplus rfl

theorem natural_toDigits (h : n ≤ limit) : natural limit (Nat.toDigits 10 n) = .ok n := by
  have hread := @natural_of_digits limit (Nat.toDigits 10 n) Nat.toDigits_ne_nil
    fun _ => Json.isDigit_of_mem_toDigits
  rw [Nat.ofDigitChars_ten_toDigits] at hread
  exact hread h

theorem isBlank_of_isDigit (h : c.isDigit = true) : isBlank c = false := by
  obtain ⟨hlo, hhi⟩ := bounds_of_isDigit h
  have hlo : 48 ≤ c.toNat := hlo
  have hhi : c.toNat ≤ 57 := hhi
  simp only [isBlank, Bool.or_eq_false_iff, Bool.and_eq_false_iff, decide_eq_false_iff_not,
    beq_eq_false_iff_ne]
  omega

theorem dropWhile_isBlank (h : ∀ c ∈ s, isBlank c = false) : s.dropWhile isBlank = s := by
  cases s with
  | nil => rfl
  | cons c s => exact List.dropWhile_cons_of_neg (by simp [h c])

theorem trim_eq_self (h : ∀ c ∈ s, isBlank c = false) : trim s = s := by
  rw [trim, dropWhile_isBlank h, dropWhile_isBlank, List.reverse_reverse]
  exact fun c hc => h c (List.mem_reverse.1 hc)

end Text

namespace Config
variable {lookup : String → Option String} {config : Config} {name other : String} {n : Nat}

structure Reads (lookup : String → Option String) (config : Config) : Prop where
  logLevel : config.logLevel = text lookup "LOG_LEVEL" "info"
  mqttAddress : config.mqttAddress = text lookup "MQTT_ADDR" "0.0.0.0:1883"
  wsAddress : config.wsAddress = text lookup "WS_ADDR" "0.0.0.0:8080"
  instanceName : config.instanceName = text lookup "INSTANCE" ""
  subjectLead : config.subjectLead = text lookup "SUBJECT_PREFIX" "mqtt"
  forwarderTimeout : duration lookup .ofMillis "FORWARDER_TIMEOUT_MS" (.ofSecs 30) =
    .ok config.forwarderTimeout
  cacheTtl : duration lookup .ofSecs "AUTH_CACHE_TTL_SECS" (.ofSecs 600) = .ok config.cacheTtl
  healthCheck : url lookup "HEALTH_CHECK" = .ok config.healthCheck
  healthPatience : duration lookup .ofSecs "HEALTH_MAX_ELAPSED_SECS" (.ofSecs 900) =
    .ok config.healthPatience
  things : list lookup thing "THINGS" = .ok config.things
  rules : list lookup rule "POLICIES" = .ok config.rules

theorem ofLookup_eq_ok_iff : ofLookup lookup = .ok config ↔ Reads lookup config := by
  constructor
  · intro h
    obtain ⟨forwarderTimeout, hforwarder, h⟩ := bind_eq_ok.1 h
    obtain ⟨cacheTtl, httl, h⟩ := bind_eq_ok.1 h
    obtain ⟨healthCheck, hcheck, h⟩ := bind_eq_ok.1 h
    obtain ⟨healthPatience, hpatience, h⟩ := bind_eq_ok.1 h
    obtain ⟨things, hthings, h⟩ := bind_eq_ok.1 h
    obtain ⟨rules, hrules, h⟩ := bind_eq_ok.1 h
    cases h
    exact ⟨rfl, rfl, rfl, rfl, rfl, hforwarder, httl, hcheck, hpatience, hthings, hrules⟩
  · intro h
    rw [ofLookup, h.forwarderTimeout, h.cacheTtl, h.healthCheck, h.healthPatience, h.things,
      h.rules, ← h.logLevel, ← h.mqttAddress, ← h.wsAddress, ← h.instanceName, ← h.subjectLead]
    rfl

def put (lookup : String → Option String) (name value : String) : String → Option String :=
  fun other => if other = settingLead ++ name then some value else lookup other

theorem setting?_put (lookup : String → Option String) (name value : String) :
    setting? (put lookup name value) name =
      (some (Text.trim value.toList)).filter (!·.isEmpty) := by
  rw [setting?, put, if_pos rfl]
  rfl

theorem setting?_put_of_ne (lookup : String → Option String) (value : String) (h : other ≠ name) :
    setting? (put lookup name value) other = setting? lookup other := by
  have hne : settingLead ++ other ≠ settingLead ++ name := by
    intro heq
    have hl := congrArg String.toList heq
    rw [String.toList_append, String.toList_append] at hl
    exact h (String.toList_inj.1 (List.append_cancel_left hl))
  rw [setting?, put, if_neg hne, setting?]

section
variable {lookup' : String → Option String} (h : setting? lookup' name = setting? lookup name)
include h

theorem text_congr (fallback : String) :
    text lookup' name fallback = text lookup name fallback := by
  rw [text, h, text]

theorem duration_congr (unit : Nat → Duration) (fallback : Duration) :
    duration lookup' unit name fallback = duration lookup unit name fallback := by
  rw [duration, h, duration]

theorem url_congr : url lookup' name = url lookup name := by
  rw [url, h, url]

theorem list_congr {α : Type} (entry : List Char → Except SettingFault α) :
    list lookup' entry name = list lookup entry name := by
  rw [list, h, list]

end

theorem unit_of_duration_eq_ok {unit : Nat → Duration} {fallback d : Duration}
    (h : duration lookup unit name fallback = .ok d) :
    d = fallback ∨ ∃ n < UInt64.size, d = unit n := by
  rw [duration] at h
  split at h
  · cases h
    exact .inl rfl
  · split at h
    · rename_i n hn
      cases h
      exact .inr ⟨n, Nat.lt_of_le_of_lt (Text.natural_le hn) (by decide), rfl⟩
    · cases h

theorem duration_put_repr (lookup : String → Option String) (unit : Nat → Duration) (name : String)
    (fallback : Duration) (h : n < UInt64.size) :
    duration (put lookup name (Nat.repr n)) unit name fallback = .ok (unit n) := by
  have hdigits : Text.trim (Nat.repr n).toList = Nat.toDigits 10 n := by
    rw [Nat.repr, String.toList_ofList]
    exact Text.trim_eq_self fun c hc => Text.isBlank_of_isDigit (Json.isDigit_of_mem_toDigits hc)
  have hne : (!(Nat.toDigits 10 n).isEmpty) = true := by
    simp [Nat.toDigits_ne_nil]
  rw [duration, setting?_put, hdigits, Option.filter_some, if_pos hne]
  simp only
  rw [Text.natural_toDigits (Nat.le_sub_one_of_lt h)]

theorem exists_ttl_eq_ofSecs (h : ofLookup lookup = .ok config) :
    ∃ n < UInt64.size, config.cacheTtl = .ofSecs n := by
  rcases unit_of_duration_eq_ok (ofLookup_eq_ok_iff.1 h).cacheTtl with hdefault | hn
  · exact ⟨600, by decide, hdefault⟩
  · exact hn

theorem ofLookup_put_ttl (h : ofLookup lookup = .ok config) (hn : n < UInt64.size) :
    ofLookup (put lookup "AUTH_CACHE_TTL_SECS" (Nat.repr n)) =
      .ok { config with cacheTtl := .ofSecs n } := by
  have hreads := ofLookup_eq_ok_iff.1 h
  have hother {other : String} (hne : other ≠ "AUTH_CACHE_TTL_SECS") :=
    setting?_put_of_ne lookup (Nat.repr n) hne
  apply ofLookup_eq_ok_iff.2
  exact {
    logLevel := hreads.logLevel.trans (text_congr (hother (by decide)).symm _)
    mqttAddress := hreads.mqttAddress.trans (text_congr (hother (by decide)).symm _)
    wsAddress := hreads.wsAddress.trans (text_congr (hother (by decide)).symm _)
    instanceName := hreads.instanceName.trans (text_congr (hother (by decide)).symm _)
    subjectLead := hreads.subjectLead.trans (text_congr (hother (by decide)).symm _)
    forwarderTimeout :=
      (duration_congr (hother (by decide)) _ _).trans hreads.forwarderTimeout
    cacheTtl := duration_put_repr lookup .ofSecs "AUTH_CACHE_TTL_SECS" _ hn
    healthCheck := (url_congr (hother (by decide))).trans hreads.healthCheck
    healthPatience := (duration_congr (hother (by decide)) _ _).trans hreads.healthPatience
    things := (list_congr (hother (by decide)) _).trans hreads.things
    rules := (list_congr (hother (by decide)) _).trans hreads.rules }

theorem exists_of_mem_list {α : Type} {entry : List Char → Except SettingFault α} {items : List α}
    (h : list lookup entry name = .ok items) {item : α} (hitem : item ∈ items) :
    ∃ e, entry e = .ok item := by
  rw [list] at h
  split at h
  · cases h
    cases hitem
  · split at h
    · rename_i hitems
      cases h
      obtain ⟨e, -, he⟩ := exists_of_mem_mapM hitems hitem
      exact ⟨e, he⟩
    · cases h

theorem ne_of_thing_eq_ok {e : List Char} {t : String × ClientId} (h : thing e = .ok t) :
    t.1 ≠ "" ∧ t.2.text ≠ "" := by
  rw [thing] at h
  split at h
  · split at h
    · cases h
    · rename_i hne
      cases h
      simpa using hne
  · cases h

theorem ne_of_identify_eq_ok (h : ofLookup lookup = .ok config) {secret : String}
    {client : ClientId} (hstore : config.identityStore.identify secret = .ok client) :
    secret ≠ "" := by
  rw [IdentityStore.identify] at hstore
  split at hstore
  · rename_i known t hfind
    obtain ⟨e, he⟩ := exists_of_mem_list (ofLookup_eq_ok_iff.1 h).things
      (List.mem_reverse.1 (List.mem_of_find?_eq_some hfind))
    obtain rfl : known = secret := by simpa using List.find?_some hfind
    exact (ne_of_thing_eq_ok he).1
  · cases hstore

end Config

end DeviceGateway
