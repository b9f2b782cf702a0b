import DeviceGateway.Proofs.Config.Settings
import DeviceGateway.Proofs.Text.Trimming
import DeviceGateway.Proofs.Topic.Grammar

/-!
# The tables in a configuration

The value of a table is cut at its commas; a piece that is blank stands for nothing, and any other
is one entry with blanks around it. A value is accepted exactly when every entry can be written from
a row that the table may hold, and then the table has these rows, in their order. The secrets and
rules of an accepted configuration decide as the rows say.
-/

namespace DeviceGateway

theorem mapM_eq_ok_iff_eq_map {ε α β : Type} {f : α → Except ε β} {written : β → α}
    {Fit : β → Prop} {as : List α} {bs : List β}
    (hf : ∀ a ∈ as, ∀ b, f a = .ok b ↔ Fit b ∧ a = written b) :
    as.mapM f = .ok bs ↔ as = bs.map written ∧ ∀ b ∈ bs, Fit b := by
  induction as generalizing bs with
  | nil =>
    rw [List.mapM_nil]
    constructor
    · rintro ⟨⟩
      exact ⟨rfl, fun b hb => absurd hb List.not_mem_nil⟩
    · rintro ⟨hbs, -⟩
      rw [List.map_eq_nil_iff.1 hbs.symm]
      rfl
  | cons a as ih =>
    obtain ⟨ha, has⟩ := List.forall_mem_cons.1 hf
    rw [List.mapM_cons, bind_eq_ok]
    constructor
    · rintro ⟨b, hb, h⟩
      obtain ⟨bs, hbs, h⟩ := bind_eq_ok.1 h
      cases h
      obtain ⟨hfit, rfl⟩ := (ha b).1 hb
      obtain ⟨rfl, hrest⟩ := (ih has).1 hbs
      exact ⟨rfl, List.forall_mem_cons.2 ⟨hfit, hrest⟩⟩
    · rintro ⟨heq, hfit⟩
      obtain ⟨b, bs, rfl, rfl, rfl⟩ := List.map_eq_cons_iff.1 heq.symm
      obtain ⟨hb, hbs⟩ := List.forall_mem_cons.1 hfit
      exact ⟨b, (ha b).2 ⟨hb, rfl⟩, bind_eq_ok.2 ⟨bs, (ih has).2 ⟨rfl, hbs⟩, rfl⟩⟩

namespace Config
open Text (AllBlank Padded Tight join pieces)

/-- The pieces of a value and the entries in them: a blank piece has none. -/
inductive Laid : List (List Char) → List (List Char) → Prop
  | nil : Laid [] []
  | blank {piece : List Char} {es ps : List (List Char)} (hpiece : AllBlank piece)
      (h : Laid es ps) : Laid es (piece :: ps)
  | entry {e piece : List Char} {es ps : List (List Char)} (hpiece : Padded e piece)
      (h : Laid es ps) : Laid (e :: es) (piece :: ps)

/-- The value `v` lists the entries `es`, with commas between them, blanks around them and any
number of blank pieces. -/
def Lists (es : List (List Char)) (v : List Char) : Prop := ∃ ps, v = join ',' ps ∧ Laid es ps

structure IsEntry (e : List Char) : Prop where
  ne_nil : e ≠ []
  tight : Tight e
  comma : ',' ∉ e

variable {es ps : List (List Char)} {e v : List Char}

theorem not_mem_of_laid (h : Laid es ps) (hes : ∀ e ∈ es, ',' ∉ e) : ∀ p ∈ ps, ',' ∉ p := by
  have hcomma : Text.isBlank ',' = false := by decide
  induction h with
  | nil => exact fun p hp => absurd hp List.not_mem_nil
  | blank hpiece h ih => exact List.forall_mem_cons.2 ⟨hpiece.not_mem hcomma, ih hes⟩
  | entry hpiece h ih =>
    obtain ⟨he, hes⟩ := List.forall_mem_cons.1 hes
    obtain ⟨before, after, hbefore, hafter, rfl⟩ := hpiece
    refine List.forall_mem_cons.2 ⟨?_, ih hes⟩
    simp [hbefore.not_mem hcomma, hafter.not_mem hcomma, he]

theorem laid_iff (hes : ∀ e ∈ es, e ≠ [] ∧ Tight e) :
    Laid es ps ↔ (ps.map Text.trim).filter (!·.isEmpty) = es := by
  constructor
  · intro h
    induction h with
    | nil => rfl
    | blank hpiece h ih =>
      rw [List.map_cons, hpiece.trim, List.filter_cons_of_neg (by simp)]
      exact ih hes
    | entry hpiece h ih =>
      obtain ⟨⟨hne, htight⟩, hes⟩ := List.forall_mem_cons.1 hes
      rw [List.map_cons, hpiece.trim_eq htight,
        List.filter_cons_of_pos (by simpa using hne), ih hes]
  · rintro rfl
    clear hes
    induction ps with
    | nil => exact .nil
    | cons p ps ih =>
      rw [List.map_cons]
      by_cases hp : Text.trim p = []
      · rw [List.filter_cons_of_neg (by simp [hp])]
        exact .blank (Text.trim_eq_nil_iff.1 hp) ih
      · rw [List.filter_cons_of_pos (by simpa using hp)]
        exact .entry (Text.padded_trim p) ih

theorem blank_or_padded_of_laid (h : Laid es ps) :
    ∀ p ∈ ps, AllBlank p ∨ ∃ e ∈ es, Padded e p := by
  induction h with
  | nil => exact fun p hp => absurd hp List.not_mem_nil
  | blank hpiece h ih => exact List.forall_mem_cons.2 ⟨.inl hpiece, ih⟩
  | entry hpiece h ih =>
    refine List.forall_mem_cons.2 ⟨.inr ⟨_, List.mem_cons_self, hpiece⟩, fun p hp => ?_⟩
    exact (ih p hp).imp_right fun ⟨e, he, hpadded⟩ => ⟨e, List.mem_cons_of_mem _ he, hpadded⟩

theorem isEntry_of_mem_entries (h : e ∈ entries v) : IsEntry e := by
  obtain ⟨hmem, hne⟩ := List.mem_filter.1 h
  obtain ⟨p, hp, rfl⟩ := List.mem_map.1 hmem
  refine ⟨by simpa using hne, Text.tight_trim p, fun hcomma => ?_⟩
  simpa using (Text.of_mem_pieces hp (Text.mem_of_mem_trim hcomma)).2

theorem entries_eq_iff (hes : ∀ e ∈ es, IsEntry e) : entries v = es ↔ Lists es v := by
  have hlaid : ∀ ps, Laid es ps ↔ (ps.map Text.trim).filter (!·.isEmpty) = es := fun ps =>
    laid_iff fun e he => ⟨(hes e he).ne_nil, (hes e he).tight⟩
  constructor
  · exact fun h => ⟨pieces (· == ',') v, (Text.join_pieces ',' v).symm, (hlaid _).2 h⟩
  · rintro ⟨ps, rfl, h⟩
    by_cases hps : ps = []
    · subst hps
      cases h
      rfl
    · have hcomma : ∀ p ∈ ps, ∀ c ∈ p, (c == ',') = false := by
        intro p hp c hc
        rw [beq_eq_false_iff_ne]
        rintro rfl
        exact not_mem_of_laid h (fun e he => (hes e he).comma) p hp hc
      rw [entries, Text.pieces_join (by decide) hps hcomma]
      exact (hlaid ps).1 h

theorem entries_trim (v : List Char) : entries (Text.trim v) = entries v := by
  obtain ⟨before, after, hbefore, hafter, hv⟩ := Text.padded_trim v
  have hsep {b : List Char} (hb : AllBlank b) : ∀ c ∈ b, (c == ',') = false := by
    intro c hc
    rw [beq_eq_false_iff_ne]
    rintro rfl
    exact hb.not_mem (by decide) hc
  have hleft (s : List Char) : entries (before ++ s) = entries s := by
    obtain ⟨first, rest, hs, hb⟩ := Text.pieces_append_left (hsep hbefore) s
    rw [entries, entries, hs, hb, List.map_cons, List.map_cons, Text.trim_append_left hbefore]
  have hright (s : List Char) : entries (s ++ after) = entries s := by
    obtain ⟨front, last, hs, hb⟩ := Text.pieces_append_right (hsep hafter) s
    rw [entries, entries, hs, hb, List.map_append, List.map_append, List.map_singleton,
      List.map_singleton, Text.trim_append_right hafter]
  calc entries (Text.trim v) = entries (before ++ Text.trim v ++ after) := by rw [hright, hleft]
    _ = entries v := by rw [← hv]

section
variable {α : Type} {entry : List Char → Except SettingFault α} {written : α → List Char}
  {Fit : α → Prop} {lookup : String → Option String} {name value : String} {rows : List α}

theorem list_eq (hvalue : lookup (settingLead ++ name) = some value) :
    list lookup entry name = ((entries value.toList).mapM entry).mapError (.setting name) := by
  have hsetting : setting? lookup name =
      (some (Text.trim value.toList)).filter (!·.isEmpty) := by
    rw [setting?, hvalue]
    rfl
  rw [list, hsetting, ← entries_trim]
  by_cases hblank : Text.trim value.toList = []
  · rw [hblank]
    rfl
  · rw [Option.filter_some, if_pos (by simpa using hblank)]
    simp only
    cases (entries (Text.trim value.toList)).mapM entry <;> rfl

theorem list_eq_ok_iff (hwritten : ∀ a, Fit a → IsEntry (written a))
    (hentry : ∀ e, IsEntry e → ∀ a, entry e = .ok a ↔ Fit a ∧ e = written a)
    (hvalue : lookup (settingLead ++ name) = some value) :
    list lookup entry name = .ok rows ↔
      Lists (rows.map written) value.toList ∧ ∀ a ∈ rows, Fit a := by
  have hread : list lookup entry name = .ok rows ↔
      (entries value.toList).mapM entry = .ok rows := by
    rw [list_eq hvalue]
    cases (entries value.toList).mapM entry <;> simp [Except.mapError]
  have hitems : ∀ e ∈ entries value.toList, ∀ a, entry e = .ok a ↔ Fit a ∧ e = written a :=
    fun e he => hentry e (isEntry_of_mem_entries he)
  rw [hread, mapM_eq_ok_iff_eq_map hitems]
  refine and_congr_left fun hfit => entries_eq_iff fun e he => ?_
  obtain ⟨a, ha, rfl⟩ := List.mem_map.1 he
  exact hwritten a (hfit a ha)

/-- Between two commas of `v`, or a comma and an end, stands what is written from no row. -/
def Misfit (written : α → List Char) (Fit : α → Prop) (v : List Char) : Prop :=
  ∃ ps, v = join ',' ps ∧ (∀ p ∈ ps, ',' ∉ p) ∧
    ∃ p ∈ ps, ¬AllBlank p ∧ ∀ a, Fit a → ¬Padded (written a) p

theorem not_misfit_of_lists (hwritten : ∀ a, Fit a → IsEntry (written a))
    (h : Lists (rows.map written) v) (hfit : ∀ a ∈ rows, Fit a) : ¬Misfit written Fit v := by
  rintro ⟨ps, rfl, hcomma, p, hp, hne, hno⟩
  have hes : ∀ e ∈ rows.map written, IsEntry e := by
    intro e he
    obtain ⟨a, ha, rfl⟩ := List.mem_map.1 he
    exact hwritten a (hfit a ha)
  have hpieces : pieces (· == ',') (join ',' ps) = ps := by
    refine Text.pieces_join (by decide) (List.ne_nil_of_mem hp) fun q hq c hc => ?_
    rw [beq_eq_false_iff_ne]
    rintro rfl
    exact hcomma q hq hc
  have hlaid : Laid (rows.map written) ps := by
    rw [laid_iff fun e he => ⟨(hes e he).ne_nil, (hes e he).tight⟩, ← hpieces]
    exact (entries_eq_iff hes).2 h
  rcases blank_or_padded_of_laid hlaid p hp with hblank | ⟨e, he, hpadded⟩
  · exact hne hblank
  · obtain ⟨a, ha, rfl⟩ := List.mem_map.1 he
    exact hno a (hfit a ha) hpadded

end

def thingEntry (t : String × ClientId) : List Char := t.1.toList ++ '=' :: t.2.text.toList

def ruleEntry (r : Rule) : List Char :=
  r.client.toList ++ ':' :: (r.channel.toList ++ ':' :: r.action.name.toList)

structure FitThing (t : String × ClientId) : Prop where
  secret_ne : t.1 ≠ ""
  client_ne : t.2.text ≠ ""
  comma : ',' ∉ t.1.toList ∧ ',' ∉ t.2.text.toList
  equals : '=' ∉ t.1.toList
  tight : Tight (thingEntry t)

structure FitRule (r : Rule) : Prop where
  client_ne : r.client ≠ ""
  channel_ne : r.channel ≠ ""
  comma : ',' ∉ r.client.toList ∧ ',' ∉ r.channel.toList
  colon : ':' ∉ r.client.toList ∧ ':' ∉ r.channel.toList
  tight : Tight (ruleEntry r)

theorem comma_not_mem_name (a : Action) : ',' ∉ a.name.toList := by
  cases a <;> decide

theorem colon_not_mem_name (a : Action) : ':' ∉ a.name.toList := by
  cases a <;> decide

theorem name_of_ofString?_eq_some {s : String} {a : Action} (h : Action.ofString? s = some a) :
    a.name = s := by
  simpa using List.find?_some h

theorem isEntry_thingEntry {t : String × ClientId} (h : FitThing t) : IsEntry (thingEntry t) where
  ne_nil := by simp [thingEntry]
  tight := h.tight
  comma := by simp [thingEntry, h.comma]

theorem isEntry_ruleEntry {r : Rule} (h : FitRule r) : IsEntry (ruleEntry r) where
  ne_nil := by simp [ruleEntry]
  tight := h.tight
  comma := by simp [ruleEntry, h.comma, comma_not_mem_name]

theorem thing_eq_ok_iff (he : IsEntry e) (t : String × ClientId) :
    thing e = .ok t ↔ FitThing t ∧ e = thingEntry t := by
  constructor
  · intro h
    rw [thing] at h
    split at h
    · rename_i secret client hcut
      obtain ⟨rfl, hequals⟩ := Topic.cutAt_eq_some_iff.1 hcut
      have hcomma : ',' ∉ secret ∧ ',' ∉ client := by simpa using he.comma
      split at h
      · cases h
      · rename_i hne
        cases h
        have hentry : thingEntry (String.ofList secret, ⟨String.ofList client⟩) =
            secret ++ '=' :: client := by simp [thingEntry]
        simp only [Bool.or_eq_true, List.isEmpty_iff, not_or] at hne
        refine ⟨⟨?_, ?_, ?_, ?_, hentry ▸ he.tight⟩, hentry.symm⟩
        · simpa using hne.1
        · simpa using hne.2
        · simpa using hcomma
        · simpa using hequals
    · cases h
  · rintro ⟨hfit, rfl⟩
    have hcut : Text.cutAt '=' (thingEntry t) = some (t.1.toList, t.2.text.toList) :=
      Topic.cutAt_eq_some_iff.2 ⟨rfl, hfit.equals⟩
    rw [thing, hcut]
    simp [hfit.secret_ne, hfit.client_ne]

theorem pieces_ruleEntry {r : Rule} (h : FitRule r) : pieces (· == ':') (ruleEntry r) =
    [r.client.toList, r.channel.toList, r.action.name.toList] := by
  have hjoin : ruleEntry r =
      Text.join ':' [r.client.toList, r.channel.toList, r.action.name.toList] := rfl
  rw [hjoin]
  refine Text.pieces_join (by decide) (List.cons_ne_nil _ _) ?_
  intro p hp x hx
  rw [beq_eq_false_iff_ne]
  rintro rfl
  rcases List.mem_cons.1 hp with rfl | hp
  · exact h.colon.1 hx
  rcases List.mem_cons.1 hp with rfl | hp
  · exact h.colon.2 hx
  rcases List.mem_singleton.1 hp with rfl
  exact colon_not_mem_name _ hx

theorem of_rulePieces (he : IsEntry e) {client channel action : List Char} {a : Action}
    (hpieces : pieces (· == ':') e = [client, channel, action])
    (ha : Action.ofString? (String.ofList action) = some a) (hclient : client ≠ [])
    (hchannel : channel ≠ []) :
    FitRule ⟨String.ofList client, String.ofList channel, a⟩ ∧
      e = ruleEntry ⟨String.ofList client, String.ofList channel, a⟩ := by
  have hjoin : client ++ ':' :: (channel ++ ':' :: action) = e := by
    have h := Text.join_pieces ':' e
    rwa [hpieces] at h
  have hcolon : ∀ p ∈ [client, channel, action], ':' ∉ p := by
    intro p hp hmem
    rw [← hpieces] at hp
    simpa using (Text.of_mem_pieces hp hmem).2
  have hname : a.name.toList = action := by
    rw [name_of_ofString?_eq_some ha, String.toList_ofList]
  have hentry : ruleEntry ⟨String.ofList client, String.ofList channel, a⟩ = e := by
    simp [ruleEntry, hname, hjoin]
  have hcomma : ',' ∉ client ∧ ',' ∉ channel ∧ ',' ∉ action := by
    simpa [← hjoin] using he.comma
  simp only [List.forall_mem_cons] at hcolon
  refine ⟨⟨?_, ?_, ?_, ?_, hentry ▸ he.tight⟩, hentry.symm⟩
  · simpa using hclient
  · simpa using hchannel
  · simpa using And.intro hcomma.1 hcomma.2.1
  · simpa using And.intro hcolon.1 hcolon.2.1

theorem rule_eq_ok_iff (he : IsEntry e) (r : Rule) :
    rule e = .ok r ↔ FitRule r ∧ e = ruleEntry r := by
  constructor
  · intro h
    rw [rule] at h
    split at h
    · rename_i client channel action hpieces
      split at h
      · cases h
      · rename_i a ha
        split at h
        · cases h
        · rename_i hne
          cases h
          simp only [Bool.or_eq_true, List.isEmpty_iff, not_or] at hne
          exact of_rulePieces he hpieces ha hne.1 hne.2
    · cases h
  · rintro ⟨hfit, rfl⟩
    rw [rule, pieces_ruleEntry hfit]
    simp [Action.ofString?_name, hfit.client_ne, hfit.channel_ne]

def IsNumber (s : List Char) : Prop :=
  ∃ digits, (s = digits ∨ s = '+' :: digits) ∧ digits ≠ [] ∧ (∀ c ∈ digits, c.isDigit = true) ∧
    Nat.ofDigitChars 10 digits 0 < UInt64.size

def IsWebAddress (s : List Char) : Prop := "http://".toList <+: s ∨ "https://".toList <+: s

/-- Each setting beside the tables that could be refused is missing, blank or well formed. -/
structure OthersSound (lookup : String → Option String) : Prop where
  number : ∀ name ∈ ["FORWARDER_TIMEOUT_MS", "AUTH_CACHE_TTL_SECS", "HEALTH_MAX_ELAPSED_SECS"],
    ∀ value, lookup (settingLead ++ name) = some value →
      AllBlank value.toList ∨ IsNumber (Text.trim value.toList)
  address : ∀ value, lookup (settingLead ++ "HEALTH_CHECK") = some value →
    AllBlank value.toList ∨ IsWebAddress (Text.trim value.toList)

section
variable {lookup : String → Option String} {name : String}

theorem of_setting?_eq_some {P : List Char → Prop}
    (h : ∀ value, lookup (settingLead ++ name) = some value →
      AllBlank value.toList ∨ P (Text.trim value.toList))
    {s : List Char} (hs : setting? lookup name = some s) : P s := by
  obtain ⟨hs, hne⟩ := Option.filter_eq_some_iff.1 hs
  obtain ⟨value, hvalue, rfl⟩ := Option.map_eq_some_iff.1 hs
  refine (h value hvalue).resolve_left fun hblank => ?_
  rw [hblank.trim] at hne
  cases hne

theorem exists_natural_eq_ok {s : List Char} (h : IsNumber s) :
    ∃ n, Text.natural (UInt64.size - 1) s = .ok n := by
  obtain ⟨digits, hs, hne, hdigit, hlt⟩ := h
  have hread := Text.natural_of_digits hne hdigit (Nat.le_sub_one_of_lt hlt)
  rcases hs with rfl | rfl
  · exact ⟨_, hread⟩
  · refine ⟨_, Eq.trans ?_ (naturalFrom_eq_ofDigitChars hdigit (Nat.le_sub_one_of_lt hlt))⟩
    obtain ⟨c, digits, rfl⟩ := List.exists_cons_of_ne_nil hne
    rfl

theorem exists_duration_eq_ok
    (h : ∀ value, lookup (settingLead ++ name) = some value →
      AllBlank value.toList ∨ IsNumber (Text.trim value.toList))
    (unit : Nat → Duration) (fallback : Duration) :
    ∃ d, duration lookup unit name fallback = .ok d := by
  rw [duration]
  split
  · exact ⟨fallback, rfl⟩
  · rename_i s hs
    obtain ⟨n, hn⟩ := exists_natural_eq_ok (of_setting?_eq_some h hs)
    rw [hn]
    exact ⟨unit n, rfl⟩

theorem exists_url_eq_ok
    (h : ∀ value, lookup (settingLead ++ name) = some value →
      AllBlank value.toList ∨ IsWebAddress (Text.trim value.toList)) :
    ∃ address, url lookup name = .ok address := by
  have hlead {lead s : List Char} (hs : lead <+: s) : (Text.afterLead lead s).isSome = true := by
    obtain ⟨rest, rfl⟩ := hs
    rw [Text.afterLead_eq_some_iff.2 rfl, Option.isSome_some]
  rw [url]
  split
  · exact ⟨none, rfl⟩
  · rename_i s hs
    refine ⟨some (String.ofList s), if_pos ?_⟩
    rw [Bool.or_eq_true]
    exact (of_setting?_eq_some h hs).imp hlead hlead

end

structure Identifies (store : IdentityStore) (rows : List (String × ClientId)) : Prop where
  known : ∀ before secret client after, rows = before ++ (secret, client) :: after →
    (∀ t ∈ after, t.1 ≠ secret) → store.identify secret = .ok client
  unknown : ∀ secret, (∀ t ∈ rows, t.1 ≠ secret) → store.identify secret = .error .notFound

structure Permits (p : Policy) (rows : List Rule) : Prop where
  ok_iff : ∀ client channel action, p.authorize client channel action = .ok () ↔
    ∃ r ∈ rows, r.action = action ∧ (r.client = "*" ∨ r.client = client.text) ∧
      (r.channel = "*" ∨ r.channel = channel.text)
  orderFree : ∀ rows' : List Rule, (∀ r, r ∈ rows' ↔ r ∈ rows) →
    (⟨rows'⟩ : Policy).authorize = p.authorize

theorem identifies (rows : List (String × ClientId)) : Identifies ⟨rows⟩ rows where
  known := by
    rintro before secret client after rfl hafter
    have hnone : after.reverse.find? (·.1 == secret) = none := by
      rw [List.find?_eq_none]
      exact fun t ht => by simpa using hafter t (List.mem_reverse.1 ht)
    simp [IdentityStore.identify, List.find?_append, hnone]
  unknown := by
    intro secret h
    have hnone : rows.reverse.find? (·.1 == secret) = none := by
      rw [List.find?_eq_none]
      exact fun t ht => by simpa using h t (List.mem_reverse.1 ht)
    simp [IdentityStore.identify, hnone]

theorem permits (rows : List Rule) : Permits ⟨rows⟩ rows where
  ok_iff := by
    intro client channel action
    rw [Policy.authorize_eq_ok_iff]
    simp [Rule.allows, wildcard, and_assoc]
  orderFree := by
    intro rows' h
    funext client channel action
    have hany : rows'.any (·.allows client channel action) =
        rows.any (·.allows client channel action) := by
      rw [Bool.eq_iff_iff]
      simp [h]
    rw [Policy.authorize, Policy.authorize, hany]

section
variable {lookup : String → Option String} {value : String}

theorem things_eq_ok_iff (hvalue : lookup "EDGEGATE_THINGS" = some value)
    {rows : List (String × ClientId)} : list lookup thing "THINGS" = .ok rows ↔
      Lists (rows.map thingEntry) value.toList ∧ ∀ t ∈ rows, FitThing t :=
  list_eq_ok_iff (fun _ => isEntry_thingEntry) (fun _ => thing_eq_ok_iff) hvalue

theorem rules_eq_ok_iff (hvalue : lookup "EDGEGATE_POLICIES" = some value) {rows : List Rule} :
    list lookup rule "POLICIES" = .ok rows ↔
      Lists (rows.map ruleEntry) value.toList ∧ ∀ r ∈ rows, FitRule r :=
  list_eq_ok_iff (fun _ => isEntry_ruleEntry) (fun _ => rule_eq_ok_iff) hvalue

theorem exists_of_othersSound (h : OthersSound lookup) {things : List (String × ClientId)}
    {rules : List Rule} (hthings : list lookup thing "THINGS" = .ok things)
    (hrules : list lookup rule "POLICIES" = .ok rules) :
    ∃ config, ofLookup lookup = .ok config ∧ config.things = things ∧ config.rules = rules := by
  obtain ⟨forwarderTimeout, hforwarder⟩ :=
    exists_duration_eq_ok (h.number "FORWARDER_TIMEOUT_MS" (by simp)) .ofMillis (.ofSecs 30)
  obtain ⟨cacheTtl, httl⟩ :=
    exists_duration_eq_ok (h.number "AUTH_CACHE_TTL_SECS" (by simp)) .ofSecs (.ofSecs 600)
  obtain ⟨healthCheck, hcheck⟩ := exists_url_eq_ok h.address
  obtain ⟨healthPatience, hpatience⟩ :=
    exists_duration_eq_ok (h.number "HEALTH_MAX_ELAPSED_SECS" (by simp)) .ofSecs (.ofSecs 900)
  exact ⟨{ forwarderTimeout, cacheTtl, healthCheck, healthPatience, things, rules
           logLevel := text lookup "LOG_LEVEL" "info"
           mqttAddress := text lookup "MQTT_ADDR" "0.0.0.0:1883"
           wsAddress := text lookup "WS_ADDR" "0.0.0.0:8080"
           instanceName := text lookup "INSTANCE" ""
           subjectLead := text lookup "SUBJECT_PREFIX" "mqtt" },
    ofLookup_eq_ok_iff.2
      ⟨rfl, rfl, rfl, rfl, rfl, hforwarder, httl, hcheck, hpatience, hthings, hrules⟩, rfl, rfl⟩

theorem exists_error_of_ne_ok (h : ∀ config, ofLookup lookup ≠ .ok config) :
    ∃ fault, ofLookup lookup = .error fault := by
  cases hread : ofLookup lookup with
  | error fault => exact ⟨fault, rfl⟩
  | ok config => exact absurd hread (h config)

end

/-- The two tables hold exactly what their values list, in order, and decide accordingly; a value
with anything else in it is refused. -/
theorem tables_as_listed (lookup : String → Option String) :
    (∀ v w things rules, lookup "EDGEGATE_THINGS" = some v → lookup "EDGEGATE_POLICIES" = some w →
      Lists (things.map thingEntry) v.toList → (∀ t ∈ things, FitThing t) →
      Lists (rules.map ruleEntry) w.toList → (∀ r ∈ rules, FitRule r) → OthersSound lookup →
      ∃ config, ofLookup lookup = .ok config ∧ config.things = things ∧ config.rules = rules) ∧
    (∀ config, ofLookup lookup = .ok config →
      Identifies config.identityStore config.things ∧ Permits config.policy config.rules ∧
      (∀ v, lookup "EDGEGATE_THINGS" = some v →
        Lists (config.things.map thingEntry) v.toList ∧ ∀ t ∈ config.things, FitThing t) ∧
      ∀ w, lookup "EDGEGATE_POLICIES" = some w →
        Lists (config.rules.map ruleEntry) w.toList ∧ ∀ r ∈ config.rules, FitRule r) ∧
    (∀ v, lookup "EDGEGATE_THINGS" = some v → Misfit thingEntry FitThing v.toList →
      ∃ fault, ofLookup lookup = .error fault) ∧
    ∀ w, lookup "EDGEGATE_POLICIES" = some w → Misfit ruleEntry FitRule w.toList →
      ∃ fault, ofLookup lookup = .error fault := by
  refine ⟨?_, ?_, ?_, ?_⟩
  · intro v w things rules hv hw hthings hfitThings hrules hfitRules hothers
    exact exists_of_othersSound hothers ((things_eq_ok_iff hv).2 ⟨hthings, hfitThings⟩)
      ((rules_eq_ok_iff hw).2 ⟨hrules, hfitRules⟩)
  · intro config h
    have hreads := ofLookup_eq_ok_iff.1 h
    exact ⟨identifies _, permits _, fun v hv => (things_eq_ok_iff hv).1 hreads.things,
      fun w hw => (rules_eq_ok_iff hw).1 hreads.rules⟩
  · intro v hv hmisfit
    refine exists_error_of_ne_ok fun config h => ?_
    obtain ⟨hlists, hfit⟩ := (things_eq_ok_iff hv).1 (ofLookup_eq_ok_iff.1 h).things
    exact not_misfit_of_lists (fun _ => isEntry_thingEntry) hlists hfit hmisfit
  · intro w hw hmisfit
    refine exists_error_of_ne_ok fun config h => ?_
    obtain ⟨hlists, hfit⟩ := (rules_eq_ok_iff hw).1 (ofLookup_eq_ok_iff.1 h).rules
    exact not_misfit_of_lists (fun _ => isEntry_ruleEntry) hlists hfit hmisfit

def spacedTables (name : String) : Option String :=
  if name = "EDGEGATE_THINGS" then some " k=A ,, k=B=b "
  else if name = "EDGEGATE_POLICIES" then some "*:c1:publish,\tA:*:subscribe"
  else none

def headlessTable (name : String) : Option String :=
  if name = "EDGEGATE_THINGS" then some "k=A,=B" else none

theorem tables_as_listed_of_spaced :
    (∃ config, ofLookup spacedTables = .ok config ∧
      config.things = [("k", ⟨"A"⟩), ("k", ⟨"B=b"⟩)] ∧
      config.rules = [⟨"*", "c1", .publish⟩, ⟨"A", "*", .subscribe⟩] ∧
      config.identityStore.identify "k" = .ok ⟨"B=b"⟩ ∧
      config.identityStore.identify "j" = .error .notFound) ∧
    ∃ fault, ofLookup headlessTable = .error fault := by
  have hmisfit : Misfit thingEntry FitThing "k=A,=B".toList := by
    refine ⟨["k=A".toList, "=B".toList], rfl, by decide, "=B".toList, by decide,
      fun hblank => absurd (hblank '=' (by decide)) (by decide), fun t hfit hpadded => ?_⟩
    have hread := (thing_eq_ok_iff (isEntry_thingEntry hfit) t).2 ⟨hfit, rfl⟩
    rw [← hpadded.trim_eq hfit.tight] at hread
    cases hread
  refine ⟨?_, (tables_as_listed headlessTable).2.2.1 "k=A,=B" rfl hmisfit⟩
  obtain ⟨haccept, hdecide, -⟩ := tables_as_listed spacedTables
  have hblank {s : List Char} (h : s.all Text.isBlank = true) : AllBlank s := List.all_eq_true.1 h
  have hnone {name : String} (hthings : name ≠ "EDGEGATE_THINGS")
      (hrules : name ≠ "EDGEGATE_POLICIES") : spacedTables name = none := by
    rw [spacedTables, if_neg hthings, if_neg hrules]
  have hfitThings : ∀ t ∈ [("k", ClientId.mk "A"), ("k", ⟨"B=b"⟩)], FitThing t := by
    intro t ht
    simp only [List.mem_cons, List.not_mem_nil, or_false] at ht
    rcases ht with rfl | rfl
    all_goals exact ⟨by decide, by decide, by decide, by decide, by decide⟩
  have hfitRules : ∀ r ∈ [Rule.mk "*" "c1" .publish, ⟨"A", "*", .subscribe⟩], FitRule r := by
    intro r hr
    simp only [List.mem_cons, List.not_mem_nil, or_false] at hr
    rcases hr with rfl | rfl
    all_goals exact ⟨by decide, by decide, by decide, by decide, by decide⟩
  have hothers : OthersSound spacedTables := by
    constructor
    · intro name hname value hvalue
      simp only [List.mem_cons, List.not_mem_nil, or_false] at hname
      rcases hname with rfl | rfl | rfl
      all_goals
        rw [hnone (by decide) (by decide)] at hvalue
        cases hvalue
    · intro value hvalue
      rw [hnone (by decide) (by decide)] at hvalue
      cases hvalue
  obtain ⟨config, h, hthings, hrules⟩ := haccept " k=A ,, k=B=b " "*:c1:publish,\tA:*:subscribe"
    [("k", ⟨"A"⟩), ("k", ⟨"B=b"⟩)] [⟨"*", "c1", .publish⟩, ⟨"A", "*", .subscribe⟩] rfl rfl
    ⟨[" k=A ".toList, [], " k=B=b ".toList], rfl,
      .entry ⟨[' '], [' '], hblank (by decide), hblank (by decide), rfl⟩
        (.blank (hblank rfl)
          (.entry ⟨[' '], [' '], hblank (by decide), hblank (by decide), rfl⟩ .nil))⟩
    hfitThings
    ⟨["*:c1:publish".toList, "\tA:*:subscribe".toList], rfl,
      .entry ⟨[], [], hblank rfl, hblank rfl, rfl⟩
        (.entry ⟨['\t'], [], hblank (by decide), hblank rfl, rfl⟩ .nil)⟩
    hfitRules hothers
  obtain ⟨hidentifies, -⟩ := hdecide config h
  rw [hthings] at hidentifies
  refine ⟨config, h, hthings, hrules, ?_, hidentifies.unknown "j" (by decide)⟩
  exact hidentifies.known [("k", ⟨"A"⟩)] "k" ⟨"B=b"⟩ [] rfl (by decide)

end Config

end DeviceGateway
