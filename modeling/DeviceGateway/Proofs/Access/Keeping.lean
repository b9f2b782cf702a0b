import DeviceGateway.Proofs.Access.Freshness
import Mathlib.Data.Finset.Card

/-!
# The cache as a map whose entries end

The log of all uses of a cache says what an ideal map would hold under a key: the value of the last
set, until its time is over. Entries that have ended stay in the cache until a get or a set finds
them, but nobody can tell: a get gives what the ideal map holds. What is stored beyond that shows in
the size alone, and a set leaves nothing of it.
-/

namespace DeviceGateway.Cache

inductive Use
  | get (key : String)
  | set (key value : String) (ttl : Duration)

def Use.key : Use → String
  | get key => key
  | set key _ _ => key

abbrev Log := List (Nat × Use)

def use (c : Cache) : Nat × Use → Cache
  | (now, .get key) => (c.get now key).1
  | (now, .set key value ttl) => (c.set now key value ttl).1

def after (c : Cache) (log : Log) : Cache := log.foldl use c

def written? (key : String) : Nat × Use → Option (String × Nat)
  | (now, .set k value ttl) => if k = key then some (value, now + ttl.nanos) else none
  | _ => none

def lastSet (log : Log) (key : String) : Option (String × Nat) :=
  log.reverse.findSome? (written? key)

/-- What an ideal map holds under a key at the time `now`. -/
def live? (log : Log) (now : Nat) (key : String) : Option String :=
  match lastSet log key with
  | some (value, deadline) => if now < deadline then some value else none
  | none => none

def liveKeys (log : Log) (now : Nat) : Finset String :=
  {key ∈ (log.map (·.2.key)).toFinset | (live? log now key).isSome}

/-- No deadline of the log is past the end of time. -/
def Tellable (log : Log) : Prop :=
  ∀ now key value ttl, (now, .set key value ttl) ∈ log → now + ttl.nanos < endOfTime

structure Timely (log : Log) (now : Nat) : Prop where
  ordered : log.Pairwise fun u v => u.1 ≤ v.1
  past : ∀ u ∈ log, u.1 ≤ now

variable {c : Cache} {log : Log} {now later deadline : Nat} {key other value : String}
variable {ttl : Duration} {u : Nat × Use} {e : Entry}

theorem after_concat (c : Cache) (log : Log) (u : Nat × Use) :
    c.after (log ++ [u]) = (c.after log).use u := by
  rw [after, List.foldl_append]
  rfl

theorem lastSet_concat (log : Log) (u : Nat × Use) (key : String) :
    lastSet (log ++ [u]) key = (written? key u).or (lastSet log key) := by
  rw [lastSet, List.reverse_concat, List.findSome?_cons]
  cases written? key u with
  | some w => rfl
  | none => rfl

theorem lastSet_get (log : Log) (now : Nat) (key other : String) :
    lastSet (log ++ [(now, .get other)]) key = lastSet log key := lastSet_concat _ _ _

theorem lastSet_set (log : Log) (now : Nat) (key value : String) (ttl : Duration) :
    lastSet (log ++ [(now, .set key value ttl)]) key = some (value, now + ttl.nanos) := by
  simp [lastSet_concat, written?]

theorem lastSet_set_of_ne (log : Log) (now : Nat) (value : String) (ttl : Duration)
    (h : other ≠ key) : lastSet (log ++ [(now, .set other value ttl)]) key = lastSet log key := by
  simp [lastSet_concat, written?, h]

theorem live?_eq_some_iff :
    live? log now key = some value ↔ ∃ d, lastSet log key = some (value, d) ∧ now < d := by
  rw [live?]
  cases hlast : lastSet log key with
  | none => simp
  | some w =>
    obtain ⟨v, d⟩ := w
    by_cases hd : now < d
    · simp [hd]
    · simp [hd]

theorem key_mem_of_lastSet {w : String × Nat} (h : lastSet log key = some w) :
    key ∈ log.map (·.2.key) := by
  obtain ⟨⟨now, use⟩, hu, hw⟩ := List.exists_of_findSome?_eq_some h
  cases use with
  | get other => cases hw
  | set other value ttl =>
    simp only [written?, Option.ite_none_right_eq_some] at hw
    exact List.mem_map.2 ⟨_, List.mem_reverse.1 hu, hw.1⟩

theorem mem_liveKeys : key ∈ liveKeys log now ↔ ∃ v d, lastSet log key = some (v, d) ∧ now < d := by
  simp only [liveKeys, Finset.mem_filter, List.mem_toFinset, Option.isSome_iff_exists,
    live?_eq_some_iff, and_iff_right_iff_imp]
  intro ⟨v, d, h, _⟩
  exact key_mem_of_lastSet h

theorem Timely.of_concat (h : Timely (log ++ [u]) now) : Timely log u.1 ∧ u.1 ≤ now := by
  obtain ⟨hlog, -, hu⟩ := List.pairwise_append.1 h.ordered
  exact ⟨⟨hlog, fun x hx => hu x hx u (List.mem_singleton_self u)⟩, h.past u (by simp)⟩

theorem Timely.concat (h : Timely log now) (u : Use) : Timely (log ++ [(now, u)]) now := by
  refine ⟨List.pairwise_append.2 ⟨h.ordered, List.pairwise_singleton _ _, ?_⟩, ?_⟩
  · intro x hx y hy
    rw [List.mem_singleton.1 hy]
    exact h.past x hx
  · intro x hx
    rcases List.mem_append.1 hx with hx | hx
    · exact h.past x hx
    · rw [List.mem_singleton.1 hx]

theorem Timely.mono (h : Timely log now) (hle : now ≤ later) : Timely log later :=
  ⟨h.ordered, fun u hu => Nat.le_trans (h.past u hu) hle⟩

theorem Tellable.of_append {rest : Log} (h : Tellable (log ++ rest)) : Tellable log :=
  fun now key value ttl hu => h now key value ttl (List.mem_append_left _ hu)

/-- The cache has all that the ideal map holds, and nothing that was not the last to be set. -/
structure Mirrors (c : Cache) (log : Log) (now : Nat) : Prop where
  sound : c.poisoned = false
  nodup : (c.entries.map (·.key)).Nodup
  entry : ∀ e ∈ c.entries, lastSet log e.key = some (e.value, e.deadline)
  held : ∀ key value deadline, lastSet log key = some (value, deadline) → now < deadline →
    ⟨key, value, deadline⟩ ∈ c.entries

theorem find?_of_mem (hnodup : (c.entries.map (·.key)).Nodup) (he : e ∈ c.entries) :
    c.find? e.key = some e := by
  rw [find?]
  generalize c.entries = entries at hnodup he
  induction entries with
  | nil => cases he
  | cons x entries ih =>
    simp only [List.map_cons, List.nodup_cons] at hnodup
    rcases List.mem_cons.1 he with rfl | he
    · simp
    · have hne : x.key ≠ e.key := by
        intro hkey
        exact hnodup.1 (hkey ▸ List.mem_map_of_mem he)
      rw [List.find?_cons_of_neg (by simpa using hne)]
      exact ih hnodup.2 he

theorem mem_of_find? (h : c.find? key = some e) : e ∈ c.entries ∧ e.key = key :=
  ⟨List.mem_of_find?_eq_some h, by simpa using List.find?_some h⟩

theorem mirrors_empty : ({} : Cache).Mirrors [] now :=
  ⟨rfl, List.nodup_nil, fun _ he => absurd he List.not_mem_nil, by simp [lastSet]⟩

theorem Mirrors.mono (h : c.Mirrors log now) (hle : now ≤ later) : c.Mirrors log later :=
  ⟨h.sound, h.nodup, h.entry, fun key value d hlast hd => h.held key value d hlast (by omega)⟩

theorem Mirrors.get_eq (h : c.Mirrors log now) (key : String) :
    (c.get now key).2 = .ok (live? log now key) := by
  cases hfind : c.find? key with
  | none =>
    have hnone : live? log now key = none := by
      apply Option.eq_none_iff_forall_ne_some.2
      intro value hlive
      obtain ⟨d, hlast, hd⟩ := live?_eq_some_iff.1 hlive
      have hsome := find?_of_mem h.nodup (h.held key value d hlast hd)
      rw [hfind] at hsome
      cases hsome
    simp [get, h.sound, hfind, hnone]
  | some e =>
    obtain ⟨he, rfl⟩ := mem_of_find? hfind
    have hlast := h.entry e he
    by_cases hd : now < e.deadline
    · simp [get, h.sound, hfind, live?, hlast, hd]
    · simp [get, h.sound, hfind, live?, hlast, hd]

theorem Mirrors.erase_ended (h : c.Mirrors log now) (he : e ∈ c.entries)
    (hended : ¬now < e.deadline) : (c.erase e.key).Mirrors log now := by
  refine ⟨h.sound, ?_, fun x hx => h.entry x (List.mem_filter.1 hx).1, ?_⟩
  · exact h.nodup.sublist (List.filter_sublist.map _)
  · intro key value d hlast hd
    refine List.mem_filter.2 ⟨h.held key value d hlast hd, ?_⟩
    have hne : key ≠ e.key := by
      rintro rfl
      rw [h.entry e he] at hlast
      cases hlast
      exact hended hd
    simpa using hne

theorem Mirrors.get (h : c.Mirrors log now) (key : String) :
    (c.get now key).1.Mirrors (log ++ [(now, .get key)]) now := by
  have hstill : ∀ {c : Cache}, c.Mirrors log now → c.Mirrors (log ++ [(now, .get key)]) now := by
    intro c h
    refine ⟨h.sound, h.nodup, fun e he => ?_, fun other value d hlast hd => ?_⟩
    · rw [lastSet_get]
      exact h.entry e he
    · rw [lastSet_get] at hlast
      exact h.held other value d hlast hd
  apply hstill
  cases hfind : c.find? key with
  | none => simpa [Cache.get, h.sound, hfind] using h
  | some e =>
    obtain ⟨he, rfl⟩ := mem_of_find? hfind
    by_cases hd : now < e.deadline
    · simpa [Cache.get, h.sound, hfind, hd] using h
    · simpa [Cache.get, h.sound, hfind, hd] using h.erase_ended he hd

theorem mem_swept : e ∈ ((c.sweep now).erase key).entries ↔
    e ∈ c.entries ∧ e.key ≠ key ∧ now < e.deadline := by
  simp [sweep, erase]

theorem Mirrors.nodup_swept (h : c.Mirrors log now) (key : String) :
    (((c.sweep now).erase key).entries.map (·.key)).Nodup :=
  h.nodup.sublist ((List.filter_sublist.trans List.filter_sublist).map _)

theorem Mirrors.set (h : c.Mirrors log now) (hend : now + ttl.nanos < endOfTime)
    (key value : String) :
    (c.set now key value ttl).1.Mirrors (log ++ [(now, .set key value ttl)]) now := by
  rw [set_of_lt h.sound hend]
  refine ⟨h.sound, ?_, fun e he => ?_, fun other v d hlast hd => ?_⟩
  · refine List.nodup_cons.2 ⟨fun hkey => ?_, h.nodup_swept key⟩
    obtain ⟨e, he, hkey⟩ := List.mem_map.1 hkey
    exact (mem_swept.1 he).2.1 hkey
  · rcases List.mem_cons.1 he with rfl | he
    · exact lastSet_set log now key value ttl
    · obtain ⟨he, hne, -⟩ := mem_swept.1 he
      rw [lastSet_set_of_ne log now value ttl hne.symm]
      exact h.entry e he
  · by_cases hkey : key = other
    · subst hkey
      rw [lastSet_set] at hlast
      cases hlast
      exact List.mem_cons_self
    · rw [lastSet_set_of_ne log now value ttl hkey] at hlast
      exact List.mem_cons_of_mem _ (mem_swept.2 ⟨h.held other v d hlast hd, Ne.symm hkey, hd⟩)

theorem mirrors_after (htimely : Timely log now) (htell : Tellable log) :
    (({} : Cache).after log).Mirrors log now := by
  induction log using List.reverseRecOn generalizing now with
  | nil => exact mirrors_empty
  | append_singleton log u ih =>
    obtain ⟨hlog, hle⟩ := htimely.of_concat
    have h := ih hlog htell.of_append
    rw [after_concat]
    obtain ⟨t, u⟩ := u
    cases u with
    | get key => exact (h.get key).mono hle
    | set key value ttl => exact (h.set (htell t key value ttl (by simp)) key value).mono hle

theorem size_of_sound (h : c.poisoned = false) : c.size = c.entries.length := by
  simp [size, h]

theorem Mirrors.card_liveKeys_le (h : c.Mirrors log now) : (liveKeys log now).card ≤ c.size := by
  have hsub : liveKeys log now ⊆ (c.entries.map (·.key)).toFinset := by
    intro key hkey
    obtain ⟨v, d, hlast, hd⟩ := mem_liveKeys.1 hkey
    exact List.mem_toFinset.2 (List.mem_map_of_mem (h.held key v d hlast hd))
  calc (liveKeys log now).card ≤ (c.entries.map (·.key)).toFinset.card := Finset.card_le_card hsub
    _ ≤ (c.entries.map (·.key)).length := List.toFinset_card_le _
    _ = c.size := by rw [List.length_map, size_of_sound h.sound]

theorem Mirrors.size_set (h : c.Mirrors log now) (hend : now + ttl.nanos < endOfTime)
    (key value : String) : (c.set now key value ttl).1.size =
      ((liveKeys (log ++ [(now, .set key value ttl)]) now).erase key).card + 1 := by
  have hkeys : (((c.sweep now).erase key).entries.map (·.key)).toFinset =
      (liveKeys (log ++ [(now, .set key value ttl)]) now).erase key := by
    ext k
    rw [List.mem_toFinset, Finset.mem_erase, mem_liveKeys, List.mem_map]
    constructor
    · intro ⟨e, he, hk⟩
      obtain ⟨he, hne, hlive⟩ := mem_swept.1 he
      rw [hk] at hne
      refine ⟨hne, e.value, e.deadline, ?_, hlive⟩
      rw [lastSet_set_of_ne log now value ttl hne.symm, ← hk]
      exact h.entry e he
    · intro ⟨hne, v, d, hlast, hd⟩
      rw [lastSet_set_of_ne log now value ttl (Ne.symm hne)] at hlast
      exact ⟨_, mem_swept.2 ⟨h.held k v d hlast hd, hne, hd⟩, rfl⟩
  have hset := h.set hend key value
  rw [size_of_sound hset.sound, set_of_lt h.sound hend, ← hkeys,
    List.toFinset_card_of_nodup (h.nodup_swept key), List.length_map, List.length_cons]

end DeviceGateway.Cache
