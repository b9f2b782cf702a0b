import DeviceGateway.Proofs.Text.Joining
import DeviceGateway.Topic
import Mathlib.Data.List.TakeWhile

/-!
# The canonical spelling of topics and filters

A topic that can be read gives a channel whose subtopic is a list of tokens joined by dots. The
channel written out again is that list joined by slashes behind `channels/<id>/messages`, and
reading this gives the same channel: for topics all tokens are plain, for filters a token may be
`*`, and the last one `>`.
-/

namespace DeviceGateway

def Channel.tokens (c : Channel) : List (List Char) :=
  (Text.pieces (· == '.') c.subtopic.toList).filter (!·.isEmpty)

namespace Topic
open Text (pieces join)

structure IsLevel (l : List Char) : Prop where
  ne_nil : l ≠ []
  clean : ∀ x ∈ l, x ≠ '/' ∧ x ≠ '.' ∧ x ≠ '?'

def IsPlain (t : List Char) : Prop := IsLevel t ∧ t.any isWild = false

/-- Tokens of a filter: `*`, plain ones, and `>` as the last one. -/
def IsPattern : List (List Char) → Prop
  | [] => True
  | t :: ts => (t = ['*'] ∨ (t = ['>'] ∧ ts = []) ∨ IsPlain t) ∧ IsPattern ts

theorem isLevel_of_all {l : List Char} (hne : l.isEmpty = false)
    (h : l.all (fun x => x != '/' && x != '.' && x != '?') = true) : IsLevel l := by
  refine ⟨by simpa using hne, fun x hx => ?_⟩
  have hclean := List.all_eq_true.1 h x hx
  simp only [Bool.and_eq_true, bne_iff_ne] at hclean
  exact ⟨hclean.1.1, hclean.1.2, hclean.2⟩

theorem isLevel_star : IsLevel ['*'] := isLevel_of_all rfl rfl

theorem isLevel_rest : IsLevel ['>'] := isLevel_of_all rfl rfl

theorem IsPattern.isLevel {ts : List (List Char)} (h : IsPattern ts) : ∀ t ∈ ts, IsLevel t := by
  induction ts with
  | nil => simp
  | cons u us ih =>
    intro t ht
    rcases List.mem_cons.1 ht with rfl | ht
    · rcases h.1 with rfl | ⟨rfl, -⟩ | hp
      · exact isLevel_star
      · exact isLevel_rest
      · exact hp.1
    · exact ih h.2 t ht

theorem tokens_of_subtopic {c : Channel} {ts : List (List Char)} (h : ∀ t ∈ ts, IsLevel t)
    (hc : c.subtopic = String.ofList (join '.' ts)) : c.tokens = ts := by
  by_cases hts : ts = []
  · rw [Channel.tokens, hc, hts]
    rfl
  · simp only [Channel.tokens, hc, String.toList_ofList]
    rw [Text.pieces_join (by decide) hts fun t ht x hx => by simpa using ((h t ht).clean x hx).2.1]
    exact List.filter_eq_self.2 fun t ht => by simpa using (h t ht).ne_nil

theorem isLevel_of_mem_levels {raw l : List Char} (hraw : ∀ x ∈ raw, x ≠ '?')
    (h : l ∈ levels raw) : IsLevel l := by
  refine ⟨ne_nil_of_mem_levels h, fun x hx => ?_⟩
  obtain ⟨hmem, hsep⟩ := Text.of_mem_pieces (List.mem_filter.1 h).1 hx
  simp only [Bool.or_eq_false_iff, beq_eq_false_iff_ne] at hsep
  exact ⟨hsep.1, hsep.2, hraw x hmem⟩

theorem ne_question_of_mem_path {s : List Char} {x : Char} (h : x ∈ path s) : x ≠ '?' := by
  have hx : x ∈ s.takeWhile (· != '?') := by
    simp only [path] at h
    split at h
    · rename_i rest he
      rw [he]
      exact List.mem_cons_of_mem _ h
    · exact h
  simpa using List.all_eq_true.1 List.all_takeWhile x hx

theorem mem_of_cutAt {sep : Char} {s a b : List Char} (h : Text.cutAt sep s = some (a, b))
    {x : Char}
    (hx : x ∈ b) : x ∈ s := by
  simp only [Text.cutAt] at h
  split at h
  · cases h
  · rename_i y rest he
    cases h
    have : x ∈ s.dropWhile (· != sep) := he ▸ List.mem_cons_of_mem _ hx
    exact (List.dropWhile_sublist _).mem this

theorem frame_raw_clean {topic : String} {id : ChannelId} {raw : List Char}
    (h : frame topic = .ok (id, raw)) : ∀ x ∈ raw, x ≠ '?' := by
  intro x hx
  refine ne_question_of_mem_path (s := topic.toList) ?_
  simp only [frame] at h
  split at h
  · cases h
  · rename_i rest hrest
    rw [Text.afterLead_eq_some_iff] at hrest
    rw [hrest]
    refine List.mem_append_right _ ?_
    split at h
    · cases h
    · rename_i rawId tail htail
      refine mem_of_cutAt htail ?_
      split at h
      · cases h
      · split at h
        · cases h
          cases hx
        · rename_i more hmore
          cases h
          rw [Text.afterLead_eq_some_iff] at hmore
          rw [hmore]
          exact List.mem_append_right _ (List.mem_cons_of_mem _ hx)
        · cases h

theorem read_eq_ok_iff {token : Bool → List Char → Option (List Char)} {topic : String}
    {c : Channel} :
    read token topic = .ok c ↔ ∃ raw ts, frame topic = .ok (c.id, raw) ∧
      tokens token (levels raw) = some ts ∧ c.subtopic = String.ofList (join '.' ts) := by
  constructor
  · intro h
    simp only [read] at h
    split at h
    · cases h
    · rename_i id raw hf
      split at h
      · cases h
      · rename_i ts hts
        cases h
        exact ⟨raw, ts, hf, hts, rfl⟩
  · rintro ⟨raw, ts, hf, hts, hc⟩
    simp only [read, hf, hts, ← hc]

theorem tokens_plain {ls ts : List (List Char)} (h : tokens plainToken ls = some ts) :
    ts = ls ∧ ∀ t ∈ ts, t.any isWild = false := by
  induction ls generalizing ts with
  | nil =>
    cases h
    simp
  | cons l ls ih =>
    simp only [tokens, plainToken] at h
    split at h
    · rename_i t us ht hus
      cases h
      split at ht
      · cases ht
      · rename_i hl
        cases ht
        obtain ⟨rfl, hu⟩ := ih hus
        refine ⟨rfl, fun t ht => ?_⟩
        rcases List.mem_cons.1 ht with rfl | ht
        · simpa using hl
        · exact hu t ht
    · cases h

theorem tokens_pattern {ls ts : List (List Char)} (hls : ∀ l ∈ ls, IsLevel l)
    (h : tokens filterToken ls = some ts) : IsPattern ts := by
  induction ls generalizing ts with
  | nil =>
    cases h
    trivial
  | cons l ls ih =>
    have hl := hls l List.mem_cons_self
    simp only [tokens] at h
    split at h
    · rename_i t us ht hus
      cases h
      refine ⟨?_, ih (fun m hm => hls m (List.mem_cons_of_mem _ hm)) hus⟩
      simp only [filterToken, plainToken] at ht
      split at ht
      · cases ht
        exact .inl rfl
      · split at ht
        · rename_i hlast
          cases ht
          have hnil : ls = [] := List.isEmpty_iff.1 hlast.1
          subst hnil
          cases hus
          exact .inr (.inl ⟨rfl, rfl⟩)
        · split at ht
          · cases ht
          · rename_i hwild
            cases ht
            exact .inr (.inr ⟨hl, by simpa using hwild⟩)
    · cases h

theorem parse_ok {topic : String} {c : Channel} (h : parse topic = .ok c) :
    ∃ ts, (∀ t ∈ ts, IsPlain t) ∧ c.subtopic = String.ofList (join '.' ts) := by
  obtain ⟨raw, ts, hf, hts, hc⟩ := read_eq_ok_iff.1 h
  obtain ⟨rfl, hp⟩ := tokens_plain hts
  exact ⟨_, fun t ht => ⟨isLevel_of_mem_levels (frame_raw_clean hf) ht, hp t ht⟩, hc⟩

theorem parseFilter_ok {topic : String} {c : Channel} (h : parseFilter topic = .ok c) :
    ∃ ts, IsPattern ts ∧ c.subtopic = String.ofList (join '.' ts) := by
  obtain ⟨raw, ts, hf, hts, hc⟩ := read_eq_ok_iff.1 h
  exact ⟨ts, tokens_pattern (fun l hl => isLevel_of_mem_levels (frame_raw_clean hf) hl) hts, hc⟩

theorem pattern_of_parseFilter {topic : String} {c : Channel} (h : parseFilter topic = .ok c) :
    IsPattern c.tokens := by
  obtain ⟨ts, hp, hc⟩ := parseFilter_ok h
  rw [tokens_of_subtopic hp.isLevel hc]
  exact hp

def spelling (id : ChannelId) (ls : List (List Char)) : List (List Char) :=
  "channels".toList :: id.text.toList :: "messages".toList :: ls

theorem isIdentifierChar_of_mem (id : ChannelId) {x : Char} (h : x ∈ id.text.toList) :
    isIdentifierChar x = true := by
  have hv := id.valid
  simp only [isIdentifier, Bool.and_eq_true] at hv
  exact List.all_eq_true.1 hv.2 x h

theorem id_ne_singleton (id : ChannelId) {x : Char} (hx : isIdentifierChar x = false) :
    id.text.toList ≠ [x] := by
  intro h
  have hchar := isIdentifierChar_of_mem id (h ▸ List.mem_singleton_self x)
  simp [hx] at hchar

theorem id_toList_inj {id id' : ChannelId} : id.text.toList = id'.text.toList ↔ id = id' := by
  rw [String.toList_inj]
  constructor
  · intro h
    cases id
    cases id'
    simp_all
  · intro h
    rw [h]

theorem isLevel_id (id : ChannelId) : IsLevel id.text.toList := by
  refine ⟨fun h => ?_, fun x hx => ?_⟩
  · have hv := id.valid
    simp [h, isIdentifier] at hv
  · have hc := isIdentifierChar_of_mem id hx
    refine ⟨?_, ?_, ?_⟩
    all_goals
      rintro rfl
      revert hc
      decide

theorem isLevel_spelling {id : ChannelId} {ls : List (List Char)} (h : ∀ l ∈ ls, IsLevel l) :
    ∀ l ∈ spelling id ls, IsLevel l := by
  intro l hl
  simp only [spelling, List.mem_cons] at hl
  rcases hl with rfl | rfl | rfl | hl
  · exact isLevel_of_all rfl rfl
  · exact isLevel_id id
  · exact isLevel_of_all rfl rfl
  · exact h l hl

theorem base_toList (id : ChannelId) :
    (base id).toList =
      "channels".toList ++ '/' :: (id.text.toList ++ '/' :: "messages".toList) := by
  simp [base, String.toList_append]

theorem join_spelling (id : ChannelId) (ls : List (List Char)) :
    join '/' (spelling id ls) = (base id).toList ++ ls.flatMap ('/' :: ·) := by
  rw [spelling, Text.join_cons, base_toList]
  simp

theorem edgeFilter_toList (c : Channel) :
    (edgeFilter c).toList = join '/' (spelling c.id (c.tokens.map edgeLevel)) := by
  rw [join_spelling, List.flatMap_map]
  simp [edgeFilter, Channel.tokens]

theorem edgeTopic_toList (id : ChannelId) {ts : List (List Char)} (h : ∀ t ∈ ts, IsLevel t) :
    (edgeTopic id (String.ofList (join '.' ts))).toList = join '/' (spelling id ts) := by
  rw [join_spelling, edgeTopic]
  cases ts with
  | nil => simp [join]
  | cons t ts =>
    have hne : join '.' (t :: ts) ≠ [] :=
      Text.join_ne_nil (by simp) fun u hu => (h u hu).ne_nil
    rw [if_neg (by simpa [String.ext_iff] using hne)]
    simp only [String.toList_append, String.toList_ofList]
    rw [Text.map_join fun u hu x hx => ((h u hu).clean x hx).2.1, Text.join_cons]
    simp

theorem cutAt_append {sep : Char} {a b : List Char} (h : ∀ x ∈ a, x ≠ sep) :
    Text.cutAt sep (a ++ sep :: b) = some (a, b) := by
  have hd : (a ++ sep :: b).dropWhile (· != sep) = sep :: b := by
    rw [List.dropWhile_append_of_pos fun x hx => by simpa using h x hx]
    simp
  have htk : (a ++ sep :: b).takeWhile (· != sep) = a := by
    rw [List.takeWhile_append_of_pos fun x hx => by simpa using h x hx]
    simp
  simp [Text.cutAt, hd, htk]

theorem frame_spelling {topic : String} {id : ChannelId} {ls : List (List Char)}
    (hls : ∀ l ∈ ls, IsLevel l) (ht : topic.toList = join '/' (spelling id ls)) :
    frame topic = .ok (id, join '/' ls) := by
  have hbody : topic.toList = "channels/".toList ++
      (id.text.toList ++ '/' :: ("messages".toList ++ ls.flatMap ('/' :: ·))) := by
    rw [ht, join_spelling, base_toList]
    simp
  have hpath : path topic.toList = topic.toList := by
    have hq : ∀ x ∈ topic.toList, (x != '?') = true := by
      intro x hx
      rw [ht] at hx
      rcases Text.mem_join hx with rfl | ⟨l, hl, hx⟩
      · decide
      · simpa using ((isLevel_spelling hls l hl).clean x hx).2.2
    rw [path, List.takeWhile_eq_self_iff.2 hq, hbody]
    rfl
  have hcut : Text.cutAt '/' (id.text.toList ++ '/' :: ("messages".toList ++ ls.flatMap ('/' :: ·))) =
      some (id.text.toList, "messages".toList ++ ls.flatMap ('/' :: ·)) :=
    cutAt_append fun x hx => ((isLevel_id id).clean x hx).1
  have hid : ChannelId.parse (String.ofList id.text.toList) = .ok id := by
    rw [String.ofList_toList, ChannelId.parse, id.ofString?_text]
  have htail : ∀ more, Text.afterLead "messages".toList ("messages".toList ++ more) = some more :=
    fun more => Text.afterLead_eq_some_iff.2 rfl
  simp only [frame, hpath, Text.afterLead_eq_some_iff.2 hbody, hcut, hid, htail]
  cases ls with
  | nil => rfl
  | cons l ls => simp [Text.join_cons]

theorem levels_join {ls : List (List Char)} (hls : ∀ l ∈ ls, IsLevel l) :
    levels (join '/' ls) = ls := by
  by_cases h : ls = []
  · subst h
    rfl
  · rw [levels, Text.pieces_join (by decide) h]
    · exact List.filter_eq_self.2 fun l hl => by simpa using (hls l hl).ne_nil
    · intro l hl x hx
      have := (hls l hl).clean x hx
      simp [this]

theorem tokens_plainToken {ts : List (List Char)} (h : ∀ t ∈ ts, IsPlain t) :
    tokens plainToken ts = some ts := by
  induction ts with
  | nil => rfl
  | cons t ts ih =>
    have ht := (h t List.mem_cons_self).2
    simp [tokens, plainToken, ht, ih fun u hu => h u (List.mem_cons_of_mem _ hu)]

theorem edgeLevel_of_plain {t : List Char} (h : IsPlain t) : edgeLevel t = t := by
  have h1 : t ≠ ['*'] := by
    rintro rfl
    exact absurd h.2 (by decide)
  have h2 : t ≠ ['>'] := by
    rintro rfl
    exact absurd h.2 (by decide)
  simp [edgeLevel, h1, h2]

theorem isLevel_edgeLevel {t : List Char} (h : IsLevel t) : IsLevel (edgeLevel t) := by
  simp only [edgeLevel]
  split
  · exact isLevel_of_all rfl rfl
  · split
    · exact isLevel_of_all rfl rfl
    · exact h

theorem filterToken_of_plain {t : List Char} (h : IsPlain t) (last : Bool) :
    filterToken last t = some t := by
  have hw := h.2
  have h1 : ¬(t = ['+'] ∨ t = ['*']) := by
    rintro (rfl | rfl) <;> exact absurd hw (by decide)
  have h2 : ¬(last = true ∧ (t = ['#'] ∨ t = ['>'])) := by
    rintro ⟨-, rfl | rfl⟩ <;> exact absurd hw (by decide)
  simp [filterToken, h1, h2, plainToken, hw]

theorem tokens_filterToken {ts : List (List Char)} (h : IsPattern ts) :
    tokens filterToken (ts.map edgeLevel) = some ts := by
  induction ts with
  | nil => rfl
  | cons t ts ih =>
    obtain ⟨ht, hts⟩ := h
    simp only [List.map_cons, tokens, ih hts]
    rcases ht with rfl | ⟨rfl, rfl⟩ | hp
    · rfl
    · rfl
    · rw [edgeLevel_of_plain hp, filterToken_of_plain hp]

theorem parse_edgeTopic {c : Channel} {ts : List (List Char)} (h : ∀ t ∈ ts, IsPlain t)
    (hc : c.subtopic = String.ofList (join '.' ts)) :
    parse (edgeTopic c.id c.subtopic) = .ok c := by
  have hl : ∀ t ∈ ts, IsLevel t := fun t ht => (h t ht).1
  refine read_eq_ok_iff.2 ⟨join '/' ts, ts, ?_, ?_, hc⟩
  · exact frame_spelling hl (hc ▸ edgeTopic_toList c.id hl)
  · rw [levels_join hl, tokens_plainToken h]

theorem parseFilter_edgeFilter {c : Channel} {ts : List (List Char)} (h : IsPattern ts)
    (hc : c.subtopic = String.ofList (join '.' ts)) : parseFilter (edgeFilter c) = .ok c := by
  have hl : ∀ t ∈ ts.map edgeLevel, IsLevel t := by
    intro t ht
    obtain ⟨u, hu, rfl⟩ := List.mem_map.1 ht
    exact isLevel_edgeLevel (h.isLevel u hu)
  refine read_eq_ok_iff.2 ⟨join '/' (ts.map edgeLevel), ts, ?_, ?_, hc⟩
  · have htok := tokens_of_subtopic h.isLevel hc
    exact frame_spelling hl (by rw [edgeFilter_toList, htok])
  · rw [levels_join hl, tokens_filterToken h]

end Topic

end DeviceGateway
