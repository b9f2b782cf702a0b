import DeviceGateway.Proofs.Bus.Posting
import DeviceGateway.Proofs.Topic.Coverage

/-!
# The two matchers agree

`Fills` is the meaning of a pattern over subjects: every `*` gives way to one token and a final `>`
to one or more. A pattern matches the subjects that fill it. Filters of devices have the same
meaning, except that their last wildcard also stands for nothing: a filter matches a topic when the
pattern of its channel, or that pattern without a final `>`, matches the subject of the topic.
-/

namespace DeviceGateway

def Channel.shortened (c : Channel) : Channel :=
  ⟨c.id, String.ofList (Text.join '.' c.tokens.dropLast)⟩

namespace Subject

/-- The second list is the first with its wildcards filled in. -/
inductive Fills : List (List Char) → List (List Char) → Prop
  | nil : Fills [] []
  | one (t : List Char) {ps ts : List (List Char)} (h : Fills ps ts) : Fills (['*'] :: ps) (t :: ts)
  | rest (t : List Char) (ts : List (List Char)) : Fills [['>']] (t :: ts)
  | same {p : List Char} {ps ts : List (List Char)} (hone : p ≠ ['*']) (hrest : p = ['>'] → ps ≠ [])
      (h : Fills ps ts) : Fills (p :: ps) (p :: ts)

theorem tokensMatch_cons {p : List Char} (hp : p ≠ ['>']) (ps : List (List Char)) (t : List Char)
    (ts : List (List Char)) :
    tokensMatch (p :: ps) (t :: ts) = ((p == ['*'] || p == t) && tokensMatch ps ts) := by
  rw [tokensMatch]
  exact hp

theorem tokensMatch_cons_nil (p : List Char) (ps : List (List Char)) :
    tokensMatch (p :: ps) [] = false := by
  rw [tokensMatch]
  all_goals simp

theorem tokensMatch_append {ls : List (List Char)} (h : ∀ l ∈ ls, l ≠ ['>'])
    (ps ts : List (List Char)) : tokensMatch (ls ++ ps) (ls ++ ts) = tokensMatch ps ts := by
  induction ls with
  | nil => rfl
  | cons l ls ih =>
    have hl := h l List.mem_cons_self
    have hls := ih fun m hm => h m (List.mem_cons_of_mem _ hm)
    rw [List.cons_append, List.cons_append, tokensMatch_cons hl, hls]
    simp

theorem not_fills_cons_nil (p : List Char) (ps : List (List Char)) : ¬Fills (p :: ps) [] := by
  intro h
  cases h

theorem tokensMatch_iff_fills {ps : List (List Char)} (hps : isPatternTokens ps = true)
    (ts : List (List Char)) : tokensMatch ps ts = true ↔ Fills ps ts := by
  induction ps generalizing ts with
  | nil =>
    cases ts with
    | nil => exact ⟨fun _ => .nil, fun _ => rfl⟩
    | cons t ts => exact ⟨nofun, nofun⟩
  | cons p ps ih =>
    simp only [isPatternTokens, Bool.and_eq_true, Bool.or_eq_true, bne_iff_ne, ne_eq,
      List.isEmpty_iff] at hps
    obtain ⟨⟨-, hlast⟩, hps⟩ := hps
    cases ts with
    | nil =>
      rw [tokensMatch_cons_nil]
      exact ⟨nofun, fun h => absurd h (not_fills_cons_nil p ps)⟩
    | cons t ts =>
      by_cases hp : p = ['>']
      · -- a final `>` takes all the tokens that are left
        have hnil : ps = [] := hlast.resolve_left fun hne => hne hp
        subst hp hnil
        exact ⟨fun _ => .rest t ts, fun _ => rfl⟩
      · rw [tokensMatch_cons hp, Bool.and_eq_true, ih hps ts]
        constructor
        · intro h
          obtain ⟨hhead, htail⟩ := h
          by_cases hstar : p = ['*']
          · exact hstar ▸ .one t htail
          · have heq : p = t := by simpa [hstar] using hhead
            exact heq ▸ .same hstar (fun hr => absurd hr hp) htail
        · intro h
          cases h with
          | one _ h => exact ⟨rfl, h⟩
          | rest => exact absurd rfl hp
          | same _ _ h => exact ⟨by simp, h⟩

theorem ne_rest_of_isSubject {s : String} (h : isSubject s = true) : ∀ t ∈ tokens s, t ≠ ['>'] := by
  intro t ht
  have hclean := List.all_eq_true.1 h t ht
  simp only [Bool.and_eq_true, bne_iff_ne] at hclean
  exact hclean.2

end Subject

namespace Topic
open Subject (Fills tokensMatch patternMatches filterMatches isPatternTokens)
open Text (join)

theorem IsPattern.isPatternTokens {ts : List (List Char)} (h : IsPattern ts) :
    isPatternTokens ts = true := by
  induction ts with
  | nil => rfl
  | cons t ts ih =>
    obtain ⟨ht, hts⟩ := h
    simp only [Subject.isPatternTokens, ih hts, Bool.and_true]
    rcases ht with rfl | ⟨rfl, rfl⟩ | hp
    · rfl
    · rfl
    · simp [hp.1.ne_nil, (plain_ne hp).2.2.2]

theorem IsPattern.of_append {us vs : List (List Char)} (h : IsPattern (us ++ vs)) :
    IsPattern us := by
  induction us with
  | nil => trivial
  | cons u us ih =>
    obtain ⟨hu, hus⟩ := h
    refine ⟨?_, ih hus⟩
    rcases hu with hu | ⟨hu, hnil⟩ | hu
    · exact .inl hu
    · exact .inr (.inl ⟨hu, (List.append_eq_nil_iff.1 hnil).1⟩)
    · exact .inr (.inr hu)

theorem Covers.of_fills {fs ts : List (List Char)} (h : Fills fs ts) : Covers fs ts := by
  induction h with
  | nil => exact .nil
  | one t _ ih => exact .one t ih
  | rest t ts => exact .rest (t :: ts)
  | same _ _ _ ih => exact .same _ ih

theorem Covers.append_rest {gs ts : List (List Char)} (h : Covers gs ts)
    (hp : IsPattern (gs ++ [['>']])) : Covers (gs ++ [['>']]) ts := by
  induction h with
  | nil => exact .rest []
  | same t _ ih => exact .same t (ih hp.2)
  | one t _ ih => exact .one t (ih hp.2)
  | rest ts =>
    exfalso
    rcases hp.1 with h | ⟨-, h⟩ | h
    · exact absurd h (by decide)
    · cases h
    · exact (plain_ne h).2.2.2 rfl

theorem fills_same {f : List Char} {fs ts : List (List Char)} (hf : IsPattern (f :: fs))
    (h : Fills fs ts) : Fills (f :: fs) (f :: ts) := by
  rcases hf.1 with rfl | ⟨rfl, rfl⟩ | hplain
  · exact .one _ h
  · exact .rest _ ts
  · obtain ⟨-, -, hstar, hgt⟩ := plain_ne hplain
    exact .same hstar (fun hr => absurd hr hgt) h

theorem covers_iff_fills {fs ts : List (List Char)} (hfs : IsPattern fs) :
    Covers fs ts ↔ Fills fs ts ∨ ∃ gs, fs = gs ++ [['>']] ∧ Fills gs ts := by
  constructor
  · intro h
    induction h with
    | nil => exact .inl .nil
    | same t _ ih =>
      rcases ih hfs.2 with h | ⟨gs, rfl, h⟩
      · exact .inl (fills_same hfs h)
      · have hgs : IsPattern (t :: gs) := IsPattern.of_append hfs
        exact .inr ⟨t :: gs, rfl, fills_same hgs h⟩
    | one t _ ih =>
      rcases ih hfs.2 with h | ⟨gs, rfl, h⟩
      · exact .inl (.one t h)
      · exact .inr ⟨['*'] :: gs, rfl, .one t h⟩
    | rest ts =>
      cases ts with
      | nil => exact .inr ⟨[], rfl, .nil⟩
      | cons t ts => exact .inl (.rest t ts)
  · intro h
    rcases h with h | ⟨gs, rfl, h⟩
    · exact .of_fills h
    · exact (Covers.of_fills h).append_rest hfs

theorem patternMatches_subject {lead : String} (hlead : Subject.isSubject lead = true)
    {c d : Channel} {fs ts : List (List Char)} (hfs : IsPattern fs)
    (hc : c.subtopic = String.ofList (join '.' fs)) (hts : ∀ t ∈ ts, IsLevel t)
    (hd : d.subtopic = String.ofList (join '.' ts)) :
    patternMatches (subject lead c) (subject lead d) = true ↔ c.id = d.id ∧ Fills fs ts := by
  have hone : c.id.text.toList ≠ ['*'] := id_ne_singleton c.id rfl
  have hrest : c.id.text.toList ≠ ['>'] := id_ne_singleton c.id rfl
  rw [patternMatches, tokens_subject lead hfs.isLevel hc, tokens_subject lead hts hd,
    Subject.tokensMatch_append (Subject.ne_rest_of_isSubject hlead),
    Subject.tokensMatch_cons hrest, Bool.and_eq_true,
    Subject.tokensMatch_iff_fills hfs.isPatternTokens]
  simp [hone, id_toList_inj]

theorem isPattern_dropLast {ts : List (List Char)} (h : IsPattern ts) : IsPattern ts.dropLast := by
  obtain ⟨us, hus⟩ := List.dropLast_prefix ts
  rw [← hus] at h
  exact h.of_append

/-- Matching over subjects is filling in, and matching over topics is matching over subjects but
for the level that a last wildcard includes. -/
theorem matchers_agree :
    (∀ pattern subject, Subject.isPattern pattern = true → Subject.isSubject subject = true →
      (patternMatches pattern subject = true ↔
        Fills (Subject.tokens pattern) (Subject.tokens subject))) ∧
    ∀ lead filter cf topic ct, Subject.isSubject lead = true → parseFilter filter = .ok cf →
      parse topic = .ok ct →
      (filterMatches (edgeFilter cf) (edgeTopic ct.id ct.subtopic) = true ↔
        patternMatches (subject lead cf) (subject lead ct) = true ∨
        cf.tokens.getLast? = some ['>'] ∧
          patternMatches (subject lead cf.shortened) (subject lead ct) = true) := by
  constructor
  · intro pattern subject hpattern _
    exact Subject.tokensMatch_iff_fills hpattern _
  · intro lead filter cf topic ct hlead hcf hct
    obtain ⟨fs, hfs, hfsub⟩ := parseFilter_ok hcf
    obtain ⟨ts, hts, htsub⟩ := parse_ok hct
    have hlevels : ∀ t ∈ ts, IsLevel t := fun t ht => (hts t ht).1
    have hftokens : cf.tokens = fs := tokens_of_subtopic hfs.isLevel hfsub
    have httokens : ct.tokens = ts := tokens_of_subtopic hlevels htsub
    have hfull := patternMatches_subject hlead (c := cf) (d := ct) hfs hfsub hlevels htsub
    have hshort := patternMatches_subject hlead (c := cf.shortened) (d := ct)
      (isPattern_dropLast hfs) (by rw [Channel.shortened, hftokens]) hlevels htsub
    have hcovers := filterMatches_iff (pattern_of_parseFilter hcf) hts htsub
    rw [hftokens, httokens, covers_iff_fills hfs] at hcovers
    rw [hcovers, hfull, hshort, hftokens, Channel.shortened]
    constructor
    · intro h
      obtain ⟨hid, h | ⟨gs, rfl, h⟩⟩ := h
      · exact .inl ⟨hid, h⟩
      · exact .inr ⟨by simp, hid, by simpa using h⟩
    · intro h
      rcases h with ⟨hid, h⟩ | ⟨hlast, hid, h⟩
      · exact ⟨hid, .inl h⟩
      · exact ⟨hid, .inr ⟨fs.dropLast, (List.dropLast_append_getLast? _ hlast).symm, h⟩⟩

theorem matchers_agree_on_parent_level :
    Subject.isPattern "mqtt.*.>" = true ∧ Subject.isSubject "mqtt.c1.a" = true ∧
    (patternMatches "mqtt.*.>" "mqtt.c1.a" = true ↔
      Fills (Subject.tokens "mqtt.*.>") (Subject.tokens "mqtt.c1.a")) ∧
    ∃ cf ct : Channel, Subject.isSubject "mqtt" = true ∧
      parseFilter "channels/c1/messages/+/#" = .ok cf ∧ parse "channels/c1/messages/a" = .ok ct ∧
      patternMatches (subject "mqtt" cf) (subject "mqtt" ct) = false ∧
      (filterMatches (edgeFilter cf) (edgeTopic ct.id ct.subtopic) = true ↔
        patternMatches (subject "mqtt" cf) (subject "mqtt" ct) = true ∨
        cf.tokens.getLast? = some ['>'] ∧
          patternMatches (subject "mqtt" cf.shortened) (subject "mqtt" ct) = true) := by
  have hpattern : Subject.isPattern "mqtt.*.>" = true := by decide
  have hsubject : Subject.isSubject "mqtt.c1.a" = true := by decide
  have hlead : Subject.isSubject "mqtt" = true := by decide
  have hcf : parseFilter "channels/c1/messages/+/#" = .ok ⟨⟨"c1", by decide⟩, "*.>"⟩ := by decide
  have hct : parse "channels/c1/messages/a" = .ok ⟨⟨"c1", by decide⟩, "a"⟩ := by decide
  exact ⟨hpattern, hsubject, matchers_agree.1 _ _ hpattern hsubject, _, _, hlead, hcf, hct,
    by decide, matchers_agree.2 _ _ _ _ _ hlead hcf hct⟩

end Topic

end DeviceGateway
