import DeviceGateway.Proofs.Topic.Canonical

/-!
# The grammar of topics and filters

What the two readers of topics answer, said of the path alone: which paths they take and as which
channel, and for all others which error. A topic that is read without wildcards is read the same
as a filter, and a filter without wildcards is read the same as a topic.
-/

namespace DeviceGateway.Topic
open Text (join)

/-- The path of a topic ends before the first question mark and does not have the slash that the
topic may begin with. -/
def IsPath (topic p : List Char) : Prop :=
  ∃ head query, topic = head ++ query ∧ '?' ∉ head ∧ (query = [] ∨ ∃ q, query = '?' :: q) ∧
    (head = '/' :: p ∨ head = p ∧ ∀ rest, p ≠ '/' :: rest)

/-- The levels are what stands between slashes and dots, except nothing. -/
inductive IsSplit : List Char → List (List Char) → Prop
  | nil : IsSplit [] []
  | sep {x : Char} {s : List Char} {ls : List (List Char)} (hx : x = '/' ∨ x = '.')
      (h : IsSplit s ls) : IsSplit (x :: s) ls
  | level {l s : List Char} {ls : List (List Char)} (hne : l ≠ [])
      (hl : ∀ x ∈ l, ¬(x = '/' ∨ x = '.'))
      (hend : ∀ x ∈ s.head?, x = '/' ∨ x = '.') (h : IsSplit s ls) : IsSplit (l ++ s) (l :: ls)

def Frames (p id raw : List Char) : Prop :=
  ∃ tail, p = "channels/".toList ++ id ++ "/messages".toList ++ tail ∧
    (tail = [] ∧ raw = [] ∨ tail = '/' :: raw)

def Misnamed (p seg : List Char) : Prop :=
  ∃ rest, p = "channels/".toList ++ seg ++ '/' :: rest ∧ '/' ∉ seg ∧ isIdentifier seg = false

def Wildless (level : List Char) : Prop :=
  '+' ∉ level ∧ '#' ∉ level ∧ '*' ∉ level ∧ '>' ∉ level

def Verbatim (ls ts : List (List Char)) : Prop := (∀ l ∈ ls, Wildless l) ∧ ts = ls

/-- What the levels of a filter stand for. -/
inductive Translates : List (List Char) → List (List Char) → Prop
  | nil : Translates [] []
  | one {l : List Char} {ls ts : List (List Char)} (hl : l = ['+'] ∨ l = ['*'])
      (h : Translates ls ts) : Translates (l :: ls) (['*'] :: ts)
  | rest {l : List Char} (hl : l = ['#'] ∨ l = ['>']) : Translates [l] [['>']]
  | same {l : List Char} {ls ts : List (List Char)} (hl : Wildless l) (h : Translates ls ts) :
      Translates (l :: ls) (l :: ts)

/-- The answers of a reader for which levels mean tokens as `Means` says. -/
structure Reads (read : String → Except TopicError Channel)
    (Means : List (List Char) → List (List Char) → Prop) (topic : String) : Prop where
  ok : ∀ c, read topic = .ok c ↔ ∃ raw ts, Frames (path topic.toList) c.id.text.toList raw ∧
    Means (levels raw) ts ∧ c.subtopic = String.ofList (join '.' ts)
  badChannel : ∀ s, read topic = .error (.badChannel s) ↔ Misnamed (path topic.toList) s.toList
  noRoute : ∀ s, read topic = .error (.noRoute s) ↔ s = topic ∧
    (∀ seg, ¬Misnamed (path topic.toList) seg) ∧
    ∀ (id : ChannelId) raw, ¬Frames (path topic.toList) id.text.toList raw
  badSubtopic : ∀ s, read topic = .error (.badSubtopic s) ↔
    (∃ id : ChannelId, Frames (path topic.toList) id.text.toList s.toList) ∧
      ∀ ts, ¬Means (levels s.toList) ts

theorem takeWhile_eq_iff {s head : List Char} : s.takeWhile (· != '?') = head ↔
    ∃ query, s = head ++ query ∧ '?' ∉ head ∧ (query = [] ∨ ∃ q, query = '?' :: q) := by
  constructor
  · rintro rfl
    refine ⟨s.dropWhile (· != '?'), List.takeWhile_append_dropWhile.symm, fun hmem => ?_, ?_⟩
    · simpa using List.all_eq_true.1 List.all_takeWhile _ hmem
    · cases hdrop : s.dropWhile (· != '?') with
      | nil => exact .inl rfl
      | cons x q =>
        have hx := List.head_dropWhile_not (· != '?') (l := s) (by rw [hdrop]; simp)
        simp only [hdrop, List.head_cons, bne_eq_false_iff_eq] at hx
        exact .inr ⟨q, by rw [hx]⟩
  · rintro ⟨query, rfl, hhead, hquery⟩
    have hall : ∀ x ∈ head, (x != '?') = true := fun x hx => by
      simp only [bne_iff_ne]
      rintro rfl
      exact hhead hx
    rw [List.takeWhile_append_of_pos hall]
    rcases hquery with rfl | ⟨q, rfl⟩ <;> simp

theorem path_eq_iff {s p : List Char} : path s = p ↔ IsPath s p := by
  have hpath : path s = p ↔ ∃ head, s.takeWhile (· != '?') = head ∧
      (head = '/' :: p ∨ head = p ∧ ∀ rest, p ≠ '/' :: rest) := by
    rw [path]
    split
    · rename_i rest hhead
      simp only [hhead, exists_eq_left', List.cons.injEq, true_and]
      refine ⟨.inl, ?_⟩
      rintro (h | ⟨h, hp⟩)
      · exact h
      · exact absurd h.symm (hp rest)
    · rename_i hslash
      simp only [exists_eq_left']
      refine ⟨fun h => .inr ⟨h, h ▸ hslash⟩, ?_⟩
      rintro (h | ⟨h, -⟩)
      · exact absurd h (hslash p)
      · exact h
  rw [hpath]
  simp only [takeWhile_eq_iff]
  constructor
  · rintro ⟨head, ⟨query, hs, hhead, hquery⟩, hp⟩
    exact ⟨head, query, hs, hhead, hquery, hp⟩
  · rintro ⟨head, query, hs, hhead, hquery, hp⟩
    exact ⟨head, ⟨query, hs, hhead, hquery⟩, hp⟩

theorem levels_cons_sep {x : Char} (hx : x = '/' ∨ x = '.') (s : List Char) :
    levels (x :: s) = levels s := by
  rw [levels, Text.pieces_cons_of_sep (by simpa using hx)]
  rfl

theorem levels_append {l s : List Char} (hne : l ≠ []) (hl : ∀ x ∈ l, ¬(x = '/' ∨ x = '.'))
    (hend : ∀ x ∈ s.head?, x = '/' ∨ x = '.') : levels (l ++ s) = l :: levels s := by
  have hclean : ∀ x ∈ l, (x == '/' || x == '.') = false := by simpa using hl
  cases s with
  | nil => simp [levels, Text.pieces_of_forall_not_sep hclean, Text.pieces_nil, hne]
  | cons x s =>
    have hx : (x == '/' || x == '.') = true := by simpa using hend x rfl
    rw [levels_cons_sep (hend x rfl), levels, Text.pieces_append_sep hx,
      Text.pieces_of_forall_not_sep hclean, List.filter_append, levels]
    simp [hne]

theorem exists_isSplit (raw : List Char) : ∃ ls, IsSplit raw ls := by
  induction raw with
  | nil => exact ⟨_, .nil⟩
  | cons x s ih =>
    obtain ⟨ls, h⟩ := ih
    by_cases hx : x = '/' ∨ x = '.'
    · exact ⟨_, .sep hx h⟩
    · have hone : ∀ y ∈ [x], ¬(y = '/' ∨ y = '.') := by simpa using hx
      cases h with
      | nil => exact ⟨_, .level (l := [x]) (by simp) hone (by simp) .nil⟩
      | sep hy h => exact ⟨_, .level (l := [x]) (by simp) hone (by simpa using hy) (.sep hy h)⟩
      | level hne hl hend h =>
        exact ⟨_, .level (List.cons_ne_nil x _) (List.forall_mem_cons.2 ⟨hx, hl⟩) hend h⟩

theorem levels_eq_iff {raw : List Char} {ls : List (List Char)} :
    levels raw = ls ↔ IsSplit raw ls := by
  have hlevels : ∀ {raw ls}, IsSplit raw ls → levels raw = ls := by
    intro raw ls h
    induction h with
    | nil => rfl
    | sep hx h ih => rw [levels_cons_sep hx, ih]
    | level hne hl hend h ih => rw [levels_append hne hl hend, ih]
  constructor
  · rintro rfl
    obtain ⟨ls, h⟩ := exists_isSplit raw
    rwa [hlevels h]
  · exact hlevels

theorem cutAt_eq_some_iff {sep : Char} {s a b : List Char} :
    Text.cutAt sep s = some (a, b) ↔ s = a ++ sep :: b ∧ sep ∉ a := by
  constructor
  · intro h
    have hs := List.takeWhile_append_dropWhile (p := (· != sep)) (l := s)
    simp only [Text.cutAt] at h
    split at h
    · cases h
    · rename_i x rest hdrop
      cases h
      have hx : (x != sep) = false := by
        have hhead := List.head_dropWhile_not (· != sep) (l := s) (by rw [hdrop]; simp)
        simpa only [hdrop, List.head_cons] using hhead
      have hxsep : x = sep := by simpa using hx
      subst hxsep
      rw [hdrop] at hs
      refine ⟨hs.symm, fun hmem => ?_⟩
      simpa using List.all_eq_true.1 List.all_takeWhile _ hmem
  · rintro ⟨rfl, hsep⟩
    exact cutAt_append fun x hx he => hsep (he ▸ hx)

theorem slash_not_mem_id (id : ChannelId) : '/' ∉ id.text.toList :=
  fun h => ((isLevel_id id).clean _ h).1 rfl

variable {topic : String}

theorem frame_of_frames {id : ChannelId} {raw : List Char}
    (h : Frames (path topic.toList) id.text.toList raw) : frame topic = .ok (id, raw) := by
  obtain ⟨tail, hp, htail⟩ := h
  have hlead : path topic.toList =
      "channels/".toList ++ (id.text.toList ++ '/' :: ("messages".toList ++ tail)) := by
    rw [hp]
    simp
  have hcut : Text.cutAt '/' (id.text.toList ++ '/' :: ("messages".toList ++ tail)) =
      some (id.text.toList, "messages".toList ++ tail) :=
    cutAt_eq_some_iff.2 ⟨rfl, slash_not_mem_id id⟩
  have hid : ChannelId.parse (String.ofList id.text.toList) = .ok id := by
    rw [String.ofList_toList, ChannelId.parse, id.ofString?_text]
  have hmessages : Text.afterLead "messages".toList ("messages".toList ++ tail) = some tail :=
    Text.afterLead_eq_some_iff.2 rfl
  simp only [frame, Text.afterLead_eq_some_iff.2 hlead, hcut, hid, hmessages]
  rcases htail with ⟨rfl, rfl⟩ | rfl
  · rfl
  · rfl

theorem frame_of_misnamed {seg : List Char} (h : Misnamed (path topic.toList) seg) :
    frame topic = .error (.badChannel (String.ofList seg)) := by
  obtain ⟨rest, hp, hslash, hseg⟩ := h
  have hlead : path topic.toList = "channels/".toList ++ (seg ++ '/' :: rest) := by
    rw [hp, List.append_assoc]
  have hcut : Text.cutAt '/' (seg ++ '/' :: rest) = some (seg, rest) :=
    cutAt_eq_some_iff.2 ⟨rfl, hslash⟩
  have hid : ChannelId.ofString? (String.ofList seg) = none :=
    ChannelId.ofString?_eq_none_iff.2 (by rw [String.toList_ofList]; exact hseg)
  simp only [frame, Text.afterLead_eq_some_iff.2 hlead, hcut, ChannelId.parse, hid]

theorem frame_cases (topic : String) :
    (∃ (id : ChannelId) (raw : List Char), frame topic = .ok (id, raw) ∧
      Frames (path topic.toList) id.text.toList raw) ∨
    (∃ seg, frame topic = .error (.badChannel (String.ofList seg)) ∧
      Misnamed (path topic.toList) seg) ∨
    frame topic = .error (.noRoute topic) := by
  cases hlead : Text.afterLead "channels/".toList (path topic.toList) with
  | none => exact .inr (.inr (by simp only [frame, hlead]))
  | some rest =>
    cases hcut : Text.cutAt '/' rest with
    | none => exact .inr (.inr (by simp only [frame, hlead, hcut]))
    | some pair =>
      obtain ⟨seg, tail⟩ := pair
      obtain ⟨hrest, hslash⟩ := cutAt_eq_some_iff.1 hcut
      have hp : path topic.toList = "channels/".toList ++ seg ++ '/' :: tail := by
        rw [Text.afterLead_eq_some_iff.1 hlead, hrest, List.append_assoc]
      cases hid : ChannelId.ofString? (String.ofList seg) with
      | none =>
        have hseg := ChannelId.ofString?_eq_none_iff.1 hid
        rw [String.toList_ofList] at hseg
        have hmis : Misnamed (path topic.toList) seg := ⟨tail, hp, hslash, hseg⟩
        exact .inr (.inl ⟨seg, frame_of_misnamed hmis, hmis⟩)
      | some id =>
        have hseg : id.text.toList = seg := by
          rw [ChannelId.ofString?_eq_some_iff.1 hid, String.toList_ofList]
        have hframes : ∀ more raw, Text.afterLead "messages".toList tail = some more →
            more = [] ∧ raw = [] ∨ more = '/' :: raw →
            Frames (path topic.toList) id.text.toList raw := by
          intro more raw hmessages hraw
          refine ⟨more, ?_, hraw⟩
          rw [hp, Text.afterLead_eq_some_iff.1 hmessages, hseg]
          simp
        simp only [frame, hlead, hcut, ChannelId.parse, hid]
        split
        · rename_i hmessages
          exact .inl ⟨id, [], rfl, hframes [] [] hmessages (.inl ⟨rfl, rfl⟩)⟩
        · rename_i raw hmessages
          exact .inl ⟨id, raw, rfl, hframes _ raw hmessages (.inr rfl)⟩
        · exact .inr (.inr rfl)

theorem frame_eq_ok_iff {id : ChannelId} {raw : List Char} :
    frame topic = .ok (id, raw) ↔ Frames (path topic.toList) id.text.toList raw := by
  refine ⟨fun h => ?_, frame_of_frames⟩
  rcases frame_cases topic with ⟨id', raw', h', hframes⟩ | ⟨seg, h', -⟩ | h'
  · rw [h'] at h
    cases h
    exact hframes
  · rw [h'] at h
    cases h
  · rw [h'] at h
    cases h

theorem frame_eq_badChannel_iff {s : String} :
    frame topic = .error (.badChannel s) ↔ Misnamed (path topic.toList) s.toList := by
  constructor
  · intro h
    rcases frame_cases topic with ⟨id, raw, h', -⟩ | ⟨seg, h', hmis⟩ | h'
    · rw [h'] at h
      cases h
    · rw [h'] at h
      cases h
      rwa [String.toList_ofList]
    · rw [h'] at h
      cases h
  · intro h
    rw [frame_of_misnamed h, String.ofList_toList]

theorem frame_eq_noRoute_iff {s : String} :
    frame topic = .error (.noRoute s) ↔ s = topic ∧
      (∀ seg, ¬Misnamed (path topic.toList) seg) ∧
      ∀ (id : ChannelId) raw, ¬Frames (path topic.toList) id.text.toList raw := by
  constructor
  · intro h
    refine ⟨?_, fun seg hseg => ?_, fun id raw hraw => ?_⟩
    · rcases frame_cases topic with ⟨id, raw, h', -⟩ | ⟨seg, h', -⟩ | h' <;> rw [h'] at h <;> cases h
      rfl
    · rw [frame_of_misnamed hseg] at h
      cases h
    · rw [frame_of_frames hraw] at h
      cases h
  · rintro ⟨rfl, hmis, hframes⟩
    rcases frame_cases s with ⟨id, raw, -, h⟩ | ⟨seg, -, h⟩ | h
    · exact absurd h (hframes id raw)
    · exact absurd h (hmis seg)
    · exact h

theorem frame_ne_badSubtopic (topic s : String) : frame topic ≠ .error (.badSubtopic s) := by
  intro h
  rcases frame_cases topic with ⟨id, raw, h', -⟩ | ⟨seg, h', -⟩ | h' <;> rw [h'] at h <;> cases h

theorem wildless_iff {l : List Char} : Wildless l ↔ l.any isWild = false := by
  have hwild : ∀ x : Char, isWild x = true ↔ x = '+' ∨ x = '#' ∨ x = '*' ∨ x = '>' := by
    intro x
    simp [isWild, or_assoc]
  constructor
  · rintro ⟨h1, h2, h3, h4⟩
    refine List.any_eq_false.2 fun x hx hw => ?_
    rcases (hwild x).1 hw with rfl | rfl | rfl | rfl
    · exact h1 hx
    · exact h2 hx
    · exact h3 hx
    · exact h4 hx
  · intro h
    have hnot : ∀ x, isWild x = true → x ∉ l := fun x hx hmem => List.any_eq_false.1 h x hmem hx
    exact ⟨hnot _ rfl, hnot _ rfl, hnot _ rfl, hnot _ rfl⟩

theorem plainToken_eq_some_iff {last : Bool} {l t : List Char} :
    plainToken last l = some t ↔ Wildless l ∧ t = l := by
  simp only [plainToken, wildless_iff]
  split
  · rename_i h
    simp [h]
  · rename_i h
    simp [h, eq_comm]

theorem filterToken_eq_some_iff {last : Bool} {l t : List Char} :
    filterToken last l = some t ↔
      (l = ['+'] ∨ l = ['*']) ∧ t = ['*'] ∨
      (last = true ∧ (l = ['#'] ∨ l = ['>'])) ∧ t = ['>'] ∨ Wildless l ∧ t = l := by
  have hwild : Wildless l → ¬(l = ['+'] ∨ l = ['*']) ∧ ¬(l = ['#'] ∨ l = ['>']) := by
    rintro ⟨h1, h2, h3, h4⟩
    constructor
    · rintro (rfl | rfl)
      · exact h1 List.mem_cons_self
      · exact h3 List.mem_cons_self
    · rintro (rfl | rfl)
      · exact h2 List.mem_cons_self
      · exact h4 List.mem_cons_self
  have hboth : (l = ['+'] ∨ l = ['*']) → ¬(l = ['#'] ∨ l = ['>']) := by
    rintro (rfl | rfl) <;> decide
  simp only [filterToken]
  split
  · rename_i h
    have h1 := hboth h
    have h2 : ¬Wildless l := fun hw => (hwild hw).1 h
    simp [h, h1, h2, eq_comm]
  · rename_i h
    split
    · rename_i hrest
      have h2 : ¬Wildless l := fun hw => (hwild hw).2 hrest.2
      simp [h, hrest, h2, eq_comm]
    · rename_i hrest
      rw [plainToken_eq_some_iff]
      simp [h, hrest]

theorem tokens_cons_eq_some_iff {token : Bool → List Char → Option (List Char)} {l : List Char}
    {ls ts : List (List Char)} :
    tokens token (l :: ls) = some ts ↔
      ∃ t us, token ls.isEmpty l = some t ∧ tokens token ls = some us ∧ ts = t :: us := by
  simp only [tokens]
  split
  · rename_i t us ht hus
    simp [ht, hus, eq_comm]
  · rename_i hnone
    constructor
    · intro h
      cases h
    · rintro ⟨t, us, ht, hus, -⟩
      exact absurd hus (hnone t us ht)

theorem tokens_plainToken_iff {ls ts : List (List Char)} :
    tokens plainToken ls = some ts ↔ Verbatim ls ts := by
  induction ls generalizing ts with
  | nil => simp [tokens, Verbatim, eq_comm]
  | cons l ls ih =>
    rw [tokens_cons_eq_some_iff]
    constructor
    · rintro ⟨t, us, ht, hus, rfl⟩
      obtain ⟨hl, rfl⟩ := plainToken_eq_some_iff.1 ht
      obtain ⟨hls, rfl⟩ := ih.1 hus
      exact ⟨List.forall_mem_cons.2 ⟨hl, hls⟩, rfl⟩
    · rintro ⟨hall, rfl⟩
      obtain ⟨hl, hls⟩ := List.forall_mem_cons.1 hall
      exact ⟨l, ls, plainToken_eq_some_iff.2 ⟨hl, rfl⟩, ih.2 ⟨hls, rfl⟩, rfl⟩

theorem tokens_filterToken_iff {ls ts : List (List Char)} :
    tokens filterToken ls = some ts ↔ Translates ls ts := by
  constructor
  · intro h
    induction ls generalizing ts with
    | nil =>
      cases h
      exact .nil
    | cons l ls ih =>
      obtain ⟨t, us, ht, hus, rfl⟩ := tokens_cons_eq_some_iff.1 h
      rcases filterToken_eq_some_iff.1 ht with ⟨hl, rfl⟩ | ⟨⟨hlast, hl⟩, rfl⟩ | ⟨hl, rfl⟩
      · exact .one hl (ih hus)
      · have hnil : ls = [] := List.isEmpty_iff.1 hlast
        subst hnil
        cases hus
        exact .rest hl
      · exact .same hl (ih hus)
  · intro h
    induction h with
    | nil => rfl
    | one hl h ih =>
      exact tokens_cons_eq_some_iff.2 ⟨_, _, filterToken_eq_some_iff.2 (.inl ⟨hl, rfl⟩), ih, rfl⟩
    | rest hl =>
      exact tokens_cons_eq_some_iff.2
        ⟨_, _, filterToken_eq_some_iff.2 (.inr (.inl ⟨⟨rfl, hl⟩, rfl⟩)), rfl, rfl⟩
    | same hl h ih =>
      exact tokens_cons_eq_some_iff.2
        ⟨_, _, filterToken_eq_some_iff.2 (.inr (.inr ⟨hl, rfl⟩)), ih, rfl⟩

theorem read_eq_error_iff {token : Bool → List Char → Option (List Char)} {e : TopicError} :
    read token topic = .error e ↔ frame topic = .error e ∨
      ∃ id raw, frame topic = .ok (id, raw) ∧ tokens token (levels raw) = none ∧
        e = .badSubtopic (String.ofList raw) := by
  simp only [read]
  split
  · rename_i e' hf
    simp [hf]
  · rename_i id raw hf
    split
    · rename_i hnone
      constructor
      · intro h
        cases h
        exact .inr ⟨id, raw, hf, hnone, rfl⟩
      · rintro (h | ⟨id', raw', h, -, rfl⟩)
        · rw [hf] at h
          cases h
        · rw [hf] at h
          cases h
          rfl
    · rename_i ts hts
      constructor
      · intro h
        cases h
      · rintro (h | ⟨id', raw', h, hnone, -⟩)
        · rw [hf] at h
          cases h
        · rw [hf] at h
          cases h
          rw [hts] at hnone
          cases hnone

theorem reads_read {token : Bool → List Char → Option (List Char)}
    {Means : List (List Char) → List (List Char) → Prop}
    (h : ∀ ls ts, tokens token ls = some ts ↔ Means ls ts) (topic : String) :
    Reads (read token) Means topic where
  ok c := by simp only [read_eq_ok_iff, frame_eq_ok_iff, h]
  badChannel s := by
    rw [read_eq_error_iff, frame_eq_badChannel_iff]
    simp
  noRoute s := by
    rw [read_eq_error_iff, frame_eq_noRoute_iff]
    simp
  badSubtopic s := by
    have hnone : ∀ ls, tokens token ls = none ↔ ∀ ts, ¬Means ls ts := by
      intro ls
      simp only [Option.eq_none_iff_forall_ne_some, ne_eq, h]
    rw [read_eq_error_iff, or_iff_right (frame_ne_badSubtopic topic s)]
    constructor
    · rintro ⟨id, raw, hf, htok, hs⟩
      cases hs
      rw [String.toList_ofList]
      exact ⟨⟨id, frame_eq_ok_iff.1 hf⟩, (hnone _).1 htok⟩
    · rintro ⟨⟨id, hf⟩, hmeans⟩
      exact ⟨id, s.toList, frame_eq_ok_iff.2 hf, (hnone _).2 hmeans, by rw [String.ofList_toList]⟩

theorem Verbatim.translates {ls ts : List (List Char)} (h : Verbatim ls ts) : Translates ls ts := by
  obtain ⟨hls, rfl⟩ := h
  induction ts with
  | nil => exact .nil
  | cons l ls ih =>
    obtain ⟨hl, hls⟩ := List.forall_mem_cons.1 hls
    exact .same hl (ih hls)

theorem Translates.verbatim {ls ts : List (List Char)} (h : Translates ls ts)
    (hts : ∀ t ∈ ts, t ≠ ['*'] ∧ t ≠ ['>']) : Verbatim ls ts := by
  induction h with
  | nil => exact ⟨by simp, rfl⟩
  | one hl h ih => exact absurd rfl (hts _ List.mem_cons_self).1
  | rest hl => exact absurd rfl (hts _ List.mem_cons_self).2
  | same hl h ih =>
    obtain ⟨hls, rfl⟩ := ih fun t ht => hts t (List.mem_cons_of_mem _ ht)
    exact ⟨List.forall_mem_cons.2 ⟨hl, hls⟩, rfl⟩

/-- The grammar of topics and filters, and what they have in common. -/
theorem topics_and_filters :
    (∀ topic p, path topic = p ↔ IsPath topic p) ∧ (∀ raw ls, levels raw = ls ↔ IsSplit raw ls) ∧
    (∀ topic, Reads parse Verbatim topic) ∧ (∀ topic, Reads parseFilter Translates topic) ∧
    (∀ topic c, parse topic = .ok c → parseFilter topic = .ok c) ∧
    ∀ topic c, parseFilter topic = .ok c → (∀ t ∈ c.tokens, t ≠ ['*'] ∧ t ≠ ['>']) →
      parse topic = .ok c := by
  have hparse := @reads_read plainToken Verbatim fun ls ts => tokens_plainToken_iff
  have hfilter := @reads_read filterToken Translates fun ls ts => tokens_filterToken_iff
  refine ⟨fun _ _ => path_eq_iff, fun _ _ => levels_eq_iff, hparse, hfilter,
    fun topic c h => ?_, fun topic c h hc => ?_⟩
  · obtain ⟨raw, ts, hframes, hmeans, hsub⟩ := ((hparse topic).ok c).1 h
    exact ((hfilter topic).ok c).2 ⟨raw, ts, hframes, hmeans.translates, hsub⟩
  · obtain ⟨raw, ts, hframes, hmeans, hsub⟩ := ((hfilter topic).ok c).1 h
    have hraw := frame_raw_clean (frame_eq_ok_iff.2 hframes)
    have hpattern : IsPattern ts :=
      tokens_pattern (fun l hl => isLevel_of_mem_levels hraw hl) (tokens_filterToken_iff.2 hmeans)
    rw [tokens_of_subtopic hpattern.isLevel hsub] at hc
    exact ((hparse topic).ok c).2 ⟨raw, ts, hframes, hmeans.verbatim hc, hsub⟩

end DeviceGateway.Topic
