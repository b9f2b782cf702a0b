import DeviceGateway.Proofs.Activity.Reaches
import DeviceGateway.Proofs.Session.Changes
import DeviceGateway.Proofs.Topic.Grammar

/-!
# What an observation acts on

The channel and the subtopic that an observer asks for are written as one topic, and what is acted
on is read from that. The reader looks for `/messages` behind the identifier. Where the text given
as the channel is more than an identifier, it may find it there, and then the rest of that text
begins the subtopic; otherwise the channel that is found is the one that was asked for.
-/

namespace DeviceGateway

namespace Observe
open Text (join)
open Topic (Translates levels)

/-- The subtopic of `c` is what `raw` names up to its first `?`. -/
def Names (c : Channel) (raw : List Char) : Prop :=
  ∃ ts, Translates (levels (raw.takeWhile (· != '?'))) ts ∧ c.subtopic = String.ofList (join '.' ts)

/-- With `channel` for a channel, the place `c` is found in front of where `channel` ends. -/
def StraysTo (channel subtopic : String) (c : Channel) : Prop :=
  ∃ more, channel.toList = c.id.text.toList ++ "/messages".toList ++ more ∧
    (∀ x ∈ more.head?, x = '/' ∨ x = '?') ∧
    Names c (more ++ "/messages/".toList ++ subtopic.toList)

def Strays (channel subtopic : String) : Prop := ∃ c, StraysTo channel subtopic c

def below (subtopic : String) : List Char :=
  if subtopic = "" then [] else '/' :: subtopic.toList.dropWhile (· == '/')

variable {channel subtopic : String} {c : Channel}

theorem path_written {t : String} {rest : List Char} (h : t.toList = "channels/".toList ++ rest) :
    Topic.path t.toList = "channels/".toList ++ rest.takeWhile (· != '?') := by
  have hlead : "channels/".toList.all (· != '?') = true := by decide
  rw [Topic.path, h, List.takeWhile_append_of_pos (List.all_eq_true.1 hlead)]
  rfl

theorem path_topic (channel subtopic : String) :
    Topic.path (topic channel subtopic).toList = "channels/".toList ++
      (channel.toList ++ "/messages".toList ++ below subtopic).takeWhile (· != '?') := by
  refine path_written ?_
  simp only [topic, below]
  split
  · simp [String.toList_append]
  · simp [String.toList_append]

theorem levels_append_slash (a b : List Char) : levels (a ++ '/' :: b) = levels a ++ levels b := by
  rw [levels, Text.pieces_append_sep (by decide), List.filter_append]
  rfl

theorem levels_slash (s : List Char) : levels ('/' :: s) = levels s :=
  levels_append_slash [] s

theorem levels_drop_slashes (s : List Char) :
    levels ((s.dropWhile (· == '/')).takeWhile (· != '?')) = levels (s.takeWhile (· != '?')) := by
  induction s with
  | nil => rfl
  | cons x s ih =>
    by_cases hx : x = '/'
    · subst hx
      rw [List.dropWhile_cons_of_pos rfl, List.takeWhile_cons_of_pos rfl, levels_slash, ih]
    · rw [List.dropWhile_cons_of_neg (by simpa using hx)]

theorem levels_below (a : List Char) (subtopic : String) :
    levels ((a ++ below subtopic).takeWhile (· != '?')) =
      levels ((a ++ '/' :: subtopic.toList).takeWhile (· != '?')) := by
  rw [List.takeWhile_append, List.takeWhile_append]
  split
  · rw [List.takeWhile_cons_of_pos rfl, levels_append_slash, below]
    split
    · rename_i hs
      simp [hs, levels, Text.pieces_nil]
    · rw [List.takeWhile_cons_of_pos rfl, levels_append_slash, levels_drop_slashes]
  · rfl

theorem takeWhile_starts_iff {s : List Char} :
    (s.takeWhile (· != '?') = [] ∨ (s.takeWhile (· != '?')).head? = some '/') ↔
      ∀ x ∈ s.head?, x = '/' ∨ x = '?' := by
  cases s with
  | nil => simp
  | cons x s =>
    by_cases hx : x = '?'
    · simp [hx]
    · simp [hx]

theorem parseFilter_eq_ok_iff {t : String} :
    Topic.parseFilter t = .ok c ↔ ∃ tail,
      Topic.path t.toList =
        "channels/".toList ++ (c.id.text.toList ++ "/messages".toList ++ tail) ∧
      (tail = [] ∨ tail.head? = some '/') ∧
      ∃ ts, Translates (levels tail) ts ∧ c.subtopic = String.ofList (join '.' ts) := by
  have hread := (Topic.reads_read (fun _ _ => Topic.tokens_filterToken_iff) t).ok c
  rw [Topic.parseFilter, hread]
  constructor
  · rintro ⟨raw, ts, ⟨tail, hp, hraw⟩, hts, hsub⟩
    refine ⟨tail, by rw [hp]; simp, ?_, ts, ?_, hsub⟩
    · rcases hraw with ⟨rfl, -⟩ | rfl
      · exact .inl rfl
      · exact .inr rfl
    · rcases hraw with ⟨rfl, rfl⟩ | rfl
      · exact hts
      · rwa [levels_slash]
  · rintro ⟨tail, hp, hraw, ts, hts, hsub⟩
    cases tail with
    | nil => exact ⟨[], ts, ⟨[], by rw [hp]; simp, .inl ⟨rfl, rfl⟩⟩, hts, hsub⟩
    | cons x raw =>
      obtain rfl : x = '/' := by simpa using hraw
      rw [levels_slash] at hts
      exact ⟨raw, ts, ⟨'/' :: raw, by rw [hp]; simp, .inr rfl⟩, hts, hsub⟩

theorem splits_agree {id ch x y : List Char} (hid : '/' ∉ id)
    (h : ch ++ "/messages".toList ++ x = id ++ "/messages".toList ++ y) :
    ch = id ∨ ∃ more, ch = id ++ "/messages".toList ++ more := by
  rw [List.append_assoc, List.append_assoc, List.append_eq_append_iff] at h
  rcases h with ⟨as, rfl, h⟩ | ⟨bs, rfl, h⟩
  · cases as with
    | nil => exact .inl (List.append_nil ch).symm
    | cons a as =>
      obtain rfl : '/' = a := (List.cons.inj h).1
      exact absurd (List.mem_append_right ch List.mem_cons_self) hid
  · rcases List.append_eq_append_iff.1 h with ⟨more, rfl, -⟩ | ⟨cs, hbs, h⟩
    · exact .inr ⟨more, (List.append_assoc ..).symm⟩
    · cases bs with
      | nil => exact .inl (List.append_nil id)
      | cons b bs =>
        cases cs with
        | nil => exact .inr ⟨[], by rw [hbs]; simp⟩
        | cons c cs =>
          -- A second slash would have to stand in `messages`.
          obtain rfl : '/' = c := (List.cons.inj h).1
          have hrest : "messages".toList = bs ++ '/' :: cs := (List.cons.inj hbs).2
          have hmem : '/' ∈ "messages".toList :=
            hrest ▸ List.mem_append_right bs List.mem_cons_self
          exact absurd hmem (by decide)

theorem takeWhile_lead (id : ChannelId) (rest : List Char) :
    (id.text.toList ++ "/messages".toList ++ rest).takeWhile (· != '?') =
      id.text.toList ++ "/messages".toList ++ rest.takeWhile (· != '?') := by
  have hmessages : "/messages".toList.all (· != '?') = true := by decide
  refine List.takeWhile_append_of_pos fun x hx => ?_
  rcases List.mem_append.1 hx with hx | hx
  · simpa using ((Topic.isLevel_id id).clean x hx).2.2
  · exact List.all_eq_true.1 hmessages x hx

theorem parseFilter_of_split {rest : List Char}
    (h : channel.toList ++ "/messages".toList ++ below subtopic =
      c.id.text.toList ++ "/messages".toList ++ rest) :
    Topic.parseFilter (topic channel subtopic) = .ok c ↔
      (∀ x ∈ rest.head?, x = '/' ∨ x = '?') ∧ Names c rest := by
  rw [parseFilter_eq_ok_iff, ← takeWhile_starts_iff, path_topic, h, takeWhile_lead]
  simp only [List.append_cancel_left_eq]
  constructor
  · rintro ⟨tail, rfl, hstart, hnames⟩
    exact ⟨hstart, hnames⟩
  · rintro ⟨hstart, hnames⟩
    exact ⟨_, rfl, hstart, hnames⟩

theorem parseFilter_topic_iff : Topic.parseFilter (topic channel subtopic) = .ok c ↔
    channel = c.id.text ∧ Names c subtopic.toList ∨ StraysTo channel subtopic c := by
  have hasked : channel = c.id.text → (Topic.parseFilter (topic channel subtopic) = .ok c ↔
      Names c subtopic.toList) := by
    rintro rfl
    have hlevels : levels ((below subtopic).takeWhile (· != '?')) =
        levels (subtopic.toList.takeWhile (· != '?')) := by
      have h := levels_below [] subtopic
      rwa [List.nil_append, List.nil_append, List.takeWhile_cons_of_pos rfl, levels_slash] at h
    have hstart : ∀ x ∈ (below subtopic).head?, x = '/' ∨ x = '?' := by
      simp only [below]
      split <;> simp
    rw [parseFilter_of_split rfl, and_iff_right hstart, Names, Names, hlevels]
  have hstrays : ∀ more, channel.toList = c.id.text.toList ++ "/messages".toList ++ more →
      (Topic.parseFilter (topic channel subtopic) = .ok c ↔
        (∀ x ∈ more.head?, x = '/' ∨ x = '?') ∧
          Names c (more ++ "/messages/".toList ++ subtopic.toList)) := by
    intro more hmore
    have hlevels := levels_below (more ++ "/messages".toList) subtopic
    have hslash : more ++ "/messages".toList ++ '/' :: subtopic.toList =
        more ++ "/messages/".toList ++ subtopic.toList := by simp
    have hstart : (∀ x ∈ (more ++ "/messages".toList ++ below subtopic).head?,
        x = '/' ∨ x = '?') ↔ ∀ x ∈ more.head?, x = '/' ∨ x = '?' := by
      cases more <;> simp
    have hsplit : channel.toList ++ "/messages".toList ++ below subtopic =
        c.id.text.toList ++ "/messages".toList ++ (more ++ "/messages".toList ++ below subtopic) := by
      rw [hmore]
      simp
    rw [parseFilter_of_split hsplit, hstart, Names, Names, hlevels, hslash]
  constructor
  · intro h
    obtain ⟨tail, hpath, -⟩ := parseFilter_eq_ok_iff.1 h
    rw [path_topic, List.append_cancel_left_eq] at hpath
    have hwhole := List.takeWhile_append_dropWhile (p := (· != '?'))
      (l := channel.toList ++ "/messages".toList ++ below subtopic)
    rw [hpath, List.append_assoc _ tail] at hwhole
    rcases splits_agree (Topic.slash_not_mem_id c.id) hwhole.symm with hch | ⟨more, hmore⟩
    · have hch := String.toList_inj.1 hch
      exact .inl ⟨hch, (hasked hch).1 h⟩
    · exact .inr ⟨more, hmore, (hstrays more hmore).1 h⟩
  · rintro (⟨hch, hnames⟩ | ⟨more, hmore, hrest⟩)
    · exact (hasked hch).2 hnames
    · exact (hstrays more hmore).2 hrest

theorem StraysTo.no_identifier (h : StraysTo channel subtopic c) :
    isIdentifier channel.toList = false := by
  obtain ⟨more, hmore, -⟩ := h
  rw [Bool.eq_false_iff]
  intro hid
  refine Topic.slash_not_mem_id ⟨channel, hid⟩ ?_
  simp [hmore]

end Observe

namespace Observation
open Activity (obeys_bind obeys_andThen)

def channel : Observation → String
  | subscribe _ channel _ _ _ | unsubscribe _ channel _ _ => channel

def subtopic : Observation → String
  | subscribe _ _ subtopic _ _ | unsubscribe _ _ subtopic _ => subtopic

def operation : Observation → Operation
  | subscribe .. => .subscribe
  | unsubscribe .. => .unsubscribe

/-- All that an observation by `client` does when it returns, each of it on `c`. Nothing is recorded
where there was nothing to remove. -/
def ActsOn (e : Observation) (st : Settings) (m : Moment) (client : ClientId) (c : Channel)
    (d : Dealings) : Prop :=
  ∃ reply records, d = [⟨.identify e.key, .ok client⟩, ⟨.authorize client c.id e.action, .ok ()⟩,
      ⟨e.change client c, reply⟩] ++ records ∧
    (Dealings.calls records = [.record (Observe.event st m e.operation client c)] ∨
      e.action = .unsubscribe ∧ records = [])

/-- The observation acts on what it asks for: a channel by its identifier, and below it what the
subtopic names. If the channel is no identifier, all it does is fail. -/
structure Faithful (e : Observation) (st : Settings) (m : Moment) : Prop where
  acts : ∀ d, (e.work st m).Reaches d (.done (.ok ())) → ∃ client c,
    ChannelId.parse e.channel = .ok c.id ∧ Observe.Names c e.subtopic.toList ∧
      e.ActsOn st m client c d
  refuses : isIdentifier e.channel.toList = false →
    (e.work st m).Obeys (fun _ _ c => c = .identify e.key) (fun _ r => ∃ why, r = .error why) []

variable {e : Observation} {st : Settings} {m : Moment} {client : ClientId} {c : Channel}

theorem topic_eq (e : Observation) : e.topic = Observe.topic e.channel e.subtopic := by
  cases e <;> rfl

theorem request_returns (key channel subtopic : String) (action : Action) :
    (Observe.request key channel subtopic action).Obeys (fun _ _ _ => True)
      (fun h r => ∀ client c, r = .ok (client, c) →
        Topic.parseFilter (Observe.topic channel subtopic) = .ok c ∧
        h = [⟨.identify key, .ok client⟩, ⟨.authorize client c.id action, .ok ()⟩]) [] := by
  refine ⟨trivial, fun r => ?_⟩
  cases r with
  | error e =>
    rintro _ _ ⟨⟩
  | ok client =>
    dsimp only
    split
    · rintro _ _ ⟨⟩
    · rename_i c hc
      refine ⟨trivial, fun r => ?_⟩
      cases r with
      | error e =>
        rintro _ _ ⟨⟩
      | ok u =>
        rintro _ _ ⟨⟩
        exact ⟨hc, rfl⟩

theorem work_returns (e : Observation) (st : Settings) (m : Moment) :
    (e.work st m).Obeys (fun _ _ _ => True) (fun h r => r = .ok () → ∃ client c,
      Topic.parseFilter e.topic = .ok c ∧ e.ActsOn st m client c h) [] := by
  cases e with
  | subscribe key channel subtopic token queue =>
    refine obeys_andThen.2
      ((request_returns key channel subtopic .subscribe).imp fun h _ r hr => ?_)
    cases r with
    | error why =>
      rintro ⟨⟩
    | ok x =>
      obtain ⟨hc, rfl⟩ := hr x.1 x.2 rfl
      refine ⟨trivial, fun _ => ⟨trivial, fun _ _ => ?_⟩⟩
      exact ⟨x.1, x.2, hc, _, _, rfl, .inl rfl⟩
  | unsubscribe key channel subtopic token =>
    refine obeys_andThen.2
      ((request_returns key channel subtopic .unsubscribe).imp fun h _ r hr => ?_)
    cases r with
    | error why =>
      rintro ⟨⟩
    | ok x =>
      obtain ⟨hc, rfl⟩ := hr x.1 x.2 rfl
      refine ⟨trivial, fun (removed : Bool) => ?_⟩
      cases removed with
      | true =>
        refine ⟨trivial, fun _ _ => ?_⟩
        exact ⟨x.1, x.2, hc, _, _, rfl, .inl rfl⟩
      | false =>
        intro _
        exact ⟨x.1, x.2, hc, _, [], rfl, .inr ⟨rfl, rfl⟩⟩

theorem request_refuses {key channel subtopic : String} (action : Action)
    (hparse : ∀ c, Topic.parseFilter (Observe.topic channel subtopic) ≠ .ok c) :
    (Observe.request key channel subtopic action).Obeys (fun _ _ c => c = .identify key)
      (fun _ r => ∃ why, r = .error why) [] := by
  refine ⟨rfl, fun r => ?_⟩
  cases r with
  | error e => exact ⟨_, rfl⟩
  | ok client =>
    dsimp only
    split
    · exact ⟨_, rfl⟩
    · rename_i c hc
      exact absurd hc (hparse c)

theorem work_refuses (hparse : ∀ c, Topic.parseFilter e.topic ≠ .ok c) :
    (e.work st m).Obeys (fun _ _ c => c = .identify e.key) (fun _ r => ∃ why, r = .error why) [] := by
  cases e with
  | subscribe key channel subtopic token queue =>
    refine obeys_andThen.2 ((request_refuses .subscribe hparse).imp ?_)
    rintro _ _ _ ⟨why, rfl⟩
    exact ⟨why, rfl⟩
  | unsubscribe key channel subtopic token =>
    refine obeys_andThen.2 ((request_refuses .unsubscribe hparse).imp ?_)
    rintro _ _ _ ⟨why, rfl⟩
    exact ⟨why, rfl⟩

theorem subscribe_reaches {key channel subtopic : String} (st : Settings) (m : Moment)
    (client : ClientId) (token : String) (queue : QueueId)
    (hc : Topic.parseFilter (Observe.topic channel subtopic) = .ok c) :
    (Observe.subscribe st m key channel subtopic token queue).Reaches
      [⟨.identify key, .ok client⟩, ⟨.authorize client c.id .subscribe, .ok ()⟩,
        ⟨.register (Observe.owner client) [(token, Topic.edgeFilter c)] queue, ()⟩,
        ⟨.record (Observe.event st m .subscribe client c), .ok ()⟩] (.done (.ok ())) := by
  simp only [Observe.subscribe, Observe.request, hc]
  exact .answer _ (.answer _ (.answer _ (.answer _ (.here _))))

theorem unsubscribe_reaches {key channel subtopic : String} (st : Settings) (m : Moment)
    (client : ClientId) (token : String)
    (hc : Topic.parseFilter (Observe.topic channel subtopic) = .ok c) :
    (Observe.unsubscribe st m key channel subtopic token).Reaches
      [⟨.identify key, .ok client⟩, ⟨.authorize client c.id .unsubscribe, .ok ()⟩,
        ⟨.deregisterFilter (Observe.owner client) token (Topic.edgeFilter c), false⟩]
      (.done (.ok ())) := by
  simp only [Observe.unsubscribe, Observe.request, hc]
  exact .answer _ (.answer _ (.answer _ (.here _)))

theorem exists_return (st : Settings) (m : Moment) (hc : Topic.parseFilter e.topic = .ok c) :
    ∃ d, (e.work st m).Reaches d (.done (.ok ())) := by
  cases e with
  | subscribe key channel subtopic token queue =>
    exact ⟨_, subscribe_reaches st m ⟨""⟩ token queue hc⟩
  | unsubscribe key channel subtopic token => exact ⟨_, unsubscribe_reaches st m ⟨""⟩ token hc⟩

/-- An observation acts on the channel asked for exactly if the text given as the channel does not
lead to another; and if it does, that other is what it acts on. -/
theorem acts_on_what_is_asked_iff (e : Observation) (st : Settings) (m : Moment) :
    (e.Faithful st m ↔ ¬Observe.Strays e.channel e.subtopic) ∧
    ∀ d, (e.work st m).Reaches d (.done (.ok ())) → ∃ client c, e.ActsOn st m client c d ∧
      (e.channel = c.id.text ∧ Observe.Names c e.subtopic.toList ∨
        Observe.StraysTo e.channel e.subtopic c) := by
  have hreturns : ∀ d, (e.work st m).Reaches d (.done (.ok ())) →
      ∃ client c, e.ActsOn st m client c d ∧
        (e.channel = c.id.text ∧ Observe.Names c e.subtopic.toList ∨
          Observe.StraysTo e.channel e.subtopic c) := by
    intro d hd
    obtain ⟨client, c, hc, hacts⟩ := (work_returns e st m).result hd rfl
    rw [topic_eq] at hc
    exact ⟨client, c, hacts, Observe.parseFilter_topic_iff.1 hc⟩
  refine ⟨⟨fun hfaithful => ?_, fun hstrays => ⟨fun d hd => ?_, fun hid => work_refuses ?_⟩⟩,
    hreturns⟩
  · rintro ⟨c, hstray⟩
    have hc : Topic.parseFilter e.topic = .ok c := by
      rw [topic_eq]
      exact Observe.parseFilter_topic_iff.2 (.inr hstray)
    obtain ⟨d, hd⟩ := exists_return st m hc
    obtain ⟨why, hwhy⟩ := (hfaithful.refuses hstray.no_identifier).result hd
    cases hwhy
  · obtain ⟨client, c, hacts, ⟨hch, hnames⟩ | hstray⟩ := hreturns d hd
    · refine ⟨client, c, ?_, hnames, hacts⟩
      rw [hch, ChannelId.parse, c.id.ofString?_text]
    · exact absurd ⟨c, hstray⟩ hstrays
  · intro c hc
    rw [topic_eq, Observe.parseFilter_topic_iff] at hc
    rcases hc with ⟨hch, -⟩ | hstray
    · rw [hch] at hid
      exact absurd c.id.valid (by simp [hid])
    · exact hstrays ⟨c, hstray⟩

/-- What is asked for as `c1/messages/a` is watched as the channel `c1`. -/
theorem subscribe_strays : ∃ d,
    (work {} ⟨0, 0⟩ (.subscribe "k" "c1/messages/a" "b" "t" 0)).Reaches d (.done (.ok ())) ∧
    Dealings.calls d = [.identify "k", .authorize ⟨"A"⟩ ⟨"c1", by decide⟩ .subscribe,
      .register "coap:A" [("t", "channels/c1/messages/a/messages/b")] 0,
      .record (Observe.event {} ⟨0, 0⟩ .subscribe ⟨"A"⟩ ⟨⟨"c1", by decide⟩, "a.messages.b"⟩)] ∧
    ChannelId.parse "c1/messages/a" = .error (.badChannel "c1/messages/a") := by
  have hc : Topic.parseFilter (Observe.topic "c1/messages/a" "b") =
      .ok ⟨⟨"c1", by decide⟩, "a.messages.b"⟩ := by decide
  have hfilter : Topic.edgeFilter ⟨⟨"c1", by decide⟩, "a.messages.b"⟩ =
      "channels/c1/messages/a/messages/b" := by decide
  refine ⟨_, subscribe_reaches {} ⟨0, 0⟩ ⟨"A"⟩ "t" 0 hc, ?_, by decide⟩
  rw [← hfilter]
  rfl

end Observation

end DeviceGateway
