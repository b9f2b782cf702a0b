import DeviceGateway.Proofs.Topic.Canonical
import DeviceGateway.Subject

/-!
# Which topics a filter covers

`Covers` is the meaning of a filter on lists of tokens: `*` stands for one token and a final `>`
for any number of them. Matching the two spellings level by level decides it, and never mixes
channels, whatever the subtopic of the message is.
-/

namespace DeviceGateway.Topic
open Subject (levelsMatch filterMatches)
open Text (pieces join)

inductive Covers : List (List Char) → List (List Char) → Prop
  | nil : Covers [] []
  | same (t : List Char) {fs ts : List (List Char)} : Covers fs ts → Covers (t :: fs) (t :: ts)
  | one (t : List Char) {fs ts : List (List Char)} : Covers fs ts → Covers (['*'] :: fs) (t :: ts)
  | rest (ts : List (List Char)) : Covers [['>']] ts

def covers : List (List Char) → List (List Char) → Bool
  | [], [] => true
  | [f], [] => f == ['>']
  | f :: fs, t :: ts => f == ['>'] && fs.isEmpty || (f == ['*'] || f == t) && covers fs ts
  | _, _ => false

theorem covers_iff {fs ts : List (List Char)} : covers fs ts = true ↔ Covers fs ts := by
  constructor
  · intro h
    fun_induction covers fs ts with
    | case1 => exact .nil
    | case2 f => exact beq_iff_eq.1 h ▸ .rest []
    | case3 f fs t ts ih =>
      simp only [Bool.or_eq_true, Bool.and_eq_true, beq_iff_eq, List.isEmpty_iff] at h
      rcases h with ⟨rfl, rfl⟩ | ⟨rfl | rfl, h⟩
      · exact .rest (t :: ts)
      · exact .one t (ih h)
      · exact .same f (ih h)
    | case4 => cases h
  · intro h
    induction h with
    | nil => rfl
    | same t _ ih => simp [covers, ih]
    | one t _ ih => simp [covers, ih]
    | rest ts => cases ts <;> simp [covers]

instance (fs ts : List (List Char)) : Decidable (Covers fs ts) := decidable_of_iff _ covers_iff

/-- The filter `f` is one for the place that `c` is. -/
def Reaches (f : String) (c : Channel) : Prop :=
  match parseFilter f with
  | .ok cf => cf.id = c.id ∧ Covers cf.tokens c.tokens
  | .error _ => False

instance (f : String) (c : Channel) : Decidable (Reaches f c) :=
  match h : parseFilter f with
  | .ok cf => decidable_of_iff (cf.id = c.id ∧ Covers cf.tokens c.tokens) (by simp [Reaches, h])
  | .error _ => isFalse (by simp [Reaches, h])

theorem levelsMatch_cons {f : List Char} (hf : f ≠ ['#']) (fs : List (List Char)) (t : List Char)
    (ts : List (List Char)) :
    levelsMatch (f :: fs) (t :: ts) = ((f == ['+'] || f == t) && levelsMatch fs ts) := by
  rw [levelsMatch]
  exact hf

theorem levelsMatch_cons_nil {f : List Char} (hf : f ≠ ['#']) (fs : List (List Char)) :
    levelsMatch (f :: fs) [] = false := by
  rw [levelsMatch]
  · exact fun _ h => hf (List.cons.inj h).1
  · simp
  · simp

theorem levelsMatch_rest (fs ts : List (List Char)) : levelsMatch (['#'] :: fs) ts = true := by
  rw [levelsMatch]

theorem plain_ne {t : List Char} (h : IsPlain t) :
    t ≠ ['+'] ∧ t ≠ ['#'] ∧ t ≠ ['*'] ∧ t ≠ ['>'] := by
  refine ⟨?_, ?_, ?_, ?_⟩
  all_goals
    rintro rfl
    exact absurd h.2 (by decide)

theorem levelsMatch_iff_covers {fs : List (List Char)} (hfs : IsPattern fs)
    (ts : List (List Char)) : levelsMatch (fs.map edgeLevel) ts = true ↔ Covers fs ts := by
  induction fs generalizing ts with
  | nil =>
    cases ts with
    | nil => exact ⟨fun _ => .nil, fun _ => rfl⟩
    | cons t ts => exact ⟨nofun, nofun⟩
  | cons f fs ih =>
    obtain ⟨hf, hfs⟩ := hfs
    rw [List.map_cons]
    rcases hf with rfl | ⟨rfl, rfl⟩ | hp
    · cases ts with
      | nil => exact ⟨nofun, nofun⟩
      | cons t ts =>
        have hstar : edgeLevel ['*'] = ['+'] := rfl
        rw [hstar, levelsMatch_cons (by decide), Bool.and_eq_true, ih hfs ts]
        constructor
        · exact fun h => .one t h.2
        · intro h
          cases h with
          | same _ h => exact ⟨rfl, h⟩
          | one _ h => exact ⟨rfl, h⟩
    · exact ⟨fun _ => .rest ts, fun _ => levelsMatch_rest _ _⟩
    · obtain ⟨hplus, hhash, hstar, hgt⟩ := plain_ne hp
      rw [edgeLevel_of_plain hp]
      cases ts with
      | nil =>
        rw [levelsMatch_cons_nil hhash]
        refine ⟨nofun, fun h => ?_⟩
        cases h
        exact absurd rfl hgt
      | cons t ts =>
        rw [levelsMatch_cons hhash, Bool.and_eq_true, ih hfs ts]
        constructor
        · rintro ⟨hft, h⟩
          have heq : f = t := by simpa [hplus] using hft
          exact heq ▸ .same f h
        · intro h
          cases h with
          | same _ h => exact ⟨by simp, h⟩
          | one _ h => exact absurd rfl hstar
          | rest => exact absurd rfl hgt

theorem levels_of_spelling {s : String} {id : ChannelId} {ls : List (List Char)}
    (hls : ∀ l ∈ ls, IsLevel l) (hs : s.toList = join '/' (spelling id ls)) :
    Subject.levels s = spelling id ls := by
  rw [Subject.levels, hs, Text.pieces_join (by decide) (by simp [spelling])]
  exact fun l hl x hx => by simpa using ((isLevel_spelling hls l hl).clean x hx).1

theorem levels_edgeFilter {c : Channel} (hc : IsPattern c.tokens) :
    Subject.levels (edgeFilter c) = spelling c.id (c.tokens.map edgeLevel) := by
  refine levels_of_spelling (fun l hl => ?_) (edgeFilter_toList c)
  obtain ⟨t, ht, rfl⟩ := List.mem_map.1 hl
  exact isLevel_edgeLevel (hc.isLevel t ht)

theorem levelsMatch_spelling (id id' : ChannelId) (fs ts : List (List Char)) :
    levelsMatch (spelling id fs) (spelling id' ts) = true ↔
      id = id' ∧ levelsMatch fs ts = true := by
  have hplus : id.text.toList ≠ ['+'] := id_ne_singleton id rfl
  have hhash : id.text.toList ≠ ['#'] := id_ne_singleton id rfl
  rw [spelling, spelling, levelsMatch_cons (by decide), levelsMatch_cons hhash,
    levelsMatch_cons (by decide)]
  simp [hplus, id_toList_inj]

theorem filterMatches_iff {cf ct : Channel} {ts : List (List Char)} (hf : IsPattern cf.tokens)
    (ht : ∀ t ∈ ts, IsPlain t) (hc : ct.subtopic = String.ofList (join '.' ts)) :
    filterMatches (edgeFilter cf) (edgeTopic ct.id ct.subtopic) = true ↔
      cf.id = ct.id ∧ Covers cf.tokens ct.tokens := by
  have hl : ∀ t ∈ ts, IsLevel t := fun t h => (ht t h).1
  have htopic : Subject.levels (edgeTopic ct.id ct.subtopic) = spelling ct.id ct.tokens := by
    rw [tokens_of_subtopic hl hc]
    exact levels_of_spelling hl (hc ▸ edgeTopic_toList ct.id hl)
  rw [filterMatches, levels_edgeFilter hf, htopic, levelsMatch_spelling, levelsMatch_iff_covers hf]

theorem levels_edgeTopic (id : ChannelId) (subtopic : String) :
    ∃ ls, Subject.levels (edgeTopic id subtopic) = spelling id ls := by
  have hbase : pieces (· == '/') (base id).toList = spelling id [] := by
    have h := @Text.pieces_join (· == '/') '/' rfl (spelling id []) (by simp [spelling])
      fun l hl x hx => by simpa using ((isLevel_spelling (by simp) l hl).clean x hx).1
    rwa [join_spelling, List.flatMap_nil, List.append_nil] at h
  rw [Subject.levels, edgeTopic]
  split
  · exact ⟨[], hbase⟩
  · refine ⟨pieces (· == '/') (subtopic.toList.map fun c => if c = '.' then '/' else c), ?_⟩
    have happ := @Text.pieces_append_sep (· == '/') '/' rfl (base id).toList
      (subtopic.toList.map fun c => if c = '.' then '/' else c)
    simpa [String.toList_append, hbase, spelling] using happ

theorem channel_eq_of_filterMatches {cf : Channel} (hf : IsPattern cf.tokens) {id : ChannelId}
    {subtopic : String} (h : filterMatches (edgeFilter cf) (edgeTopic id subtopic) = true) :
    cf.id = id := by
  obtain ⟨ls, hls⟩ := levels_edgeTopic id subtopic
  rw [filterMatches, levels_edgeFilter hf, hls, levelsMatch_spelling] at h
  exact h.1

end DeviceGateway.Topic
