import DeviceGateway.Proofs.Bus.Posting
import DeviceGateway.Services
import DeviceGateway.Session.Basic

/-!
# One name for each place

A channel that was read from a topic or a filter reads back from what it is written as, so its
written form stands for it alone: topics and filters have one canonical spelling each, and under one
lead no two channels share a subject. The token under which a session registers a filter is that
spelling, and whatever spelling an unsubscribe uses, it takes away this one token.
-/

namespace DeviceGateway
open Text (join)

theorem Channel.ext_of_tokens {c c' : Channel} (hid : c.id.text.toList = c'.id.text.toList)
    (hsub : c.subtopic = c'.subtopic) : c = c' := by
  have hsame : c.id = c'.id := Topic.id_toList_inj.1 hid
  cases c
  cases c'
  simp_all

namespace Topic

theorem edgeFilter_inj {f f' : String} {c c' : Channel} (hc : parseFilter f = .ok c)
    (hc' : parseFilter f' = .ok c') : edgeFilter c = edgeFilter c' ↔ c = c' := by
  obtain ⟨ts, hts, hsub⟩ := parseFilter_ok hc
  obtain ⟨ts', hts', hsub'⟩ := parseFilter_ok hc'
  constructor
  · intro h
    have hread := parseFilter_edgeFilter hts hsub
    rw [h, parseFilter_edgeFilter hts' hsub'] at hread
    exact (Except.ok.inj hread).symm
  · intro h
    rw [h]

theorem subject_inj (lead : String) {c c' : Channel} {ts ts' : List (List Char)}
    (hts : ∀ t ∈ ts, IsLevel t) (hsub : c.subtopic = String.ofList (join '.' ts))
    (hts' : ∀ t ∈ ts', IsLevel t) (hsub' : c'.subtopic = String.ofList (join '.' ts'))
    (h : subject lead c = subject lead c') : c = c' := by
  have htokens := congrArg Subject.tokens h
  rw [tokens_subject lead hts hsub, tokens_subject lead hts' hsub'] at htokens
  obtain ⟨hid, heq⟩ := List.cons.inj (List.append_cancel_left htokens)
  exact Channel.ext_of_tokens hid (by rw [hsub, hsub', heq])

end Topic

namespace Session
variable {s : Session} {client : ClientId}

theorem run_unsubscribe (hs : s.connected? = some client) (st : Settings) (m : Moments) (now : Nat)
    (v : Services) (c : Channel) :
    ∃ v', (s.unsubscribe st m [⟨c, .unsubscribe⟩]).run (Services.answer now) v =
        (v', .answer (.ok [Topic.edgeFilter c])) ∧
      v'.broker = v.broker.erase s.owner (Topic.edgeFilter c) := by
  have hgrants : misuse? .unsubscribe [⟨c, .unsubscribe⟩] = none := rfl
  cases hremoved : (v.broker.find? s.owner (Topic.edgeFilter c)).isSome with
  | false =>
    refine ⟨{ v with broker := v.broker.erase s.owner (Topic.edgeFilter c) }, ?_, rfl⟩
    simp [unsubscribe, whenConnected, hs, hgrants, deregisterEach, Activity.bind, Activity.run,
      Services.answer, Broker.deregister, hremoved]
  | true =>
    -- what was registered is also recorded as gone
    refine ⟨Services.record { v with broker := v.broker.erase s.owner (Topic.edgeFilter c) }
      (event st (m 0) s client .unsubscribe ⟨c, .unsubscribe⟩), ?_, rfl⟩
    simp [unsubscribe, whenConnected, hs, hgrants, deregisterEach, emit, Activity.bind,
      Activity.run, Services.answer, Broker.deregister, hremoved]

theorem unsubscribe_removes_token (hs : s.connected? = some client) {f : String} {c : Channel}
    (hc : Topic.parseFilter f = .ok c) (st : Settings) (m : Moments) (now : Nat) (v : Services) :
    ∃ v', (s.unsubscribe st m [⟨c, .unsubscribe⟩]).run (Services.answer now) v =
        (v', .answer (.ok [Topic.edgeFilter c])) ∧
      (∀ f' c', Topic.parseFilter f' = .ok c' → ∀ r : Registration,
        r.key = (s.owner, Topic.edgeFilter c') →
        (r ∈ v'.broker.registrations ↔ r ∈ v.broker.registrations ∧ c' ≠ c)) ∧
      ∀ r : Registration, r.owner ≠ s.owner →
        (r ∈ v'.broker.registrations ↔ r ∈ v.broker.registrations) := by
  obtain ⟨v', hrun, hbroker⟩ := run_unsubscribe hs st m now v c
  refine ⟨v', hrun, ?_, ?_⟩
  · intro f' c' hc' r hr
    rw [hbroker, Broker.mem_erase, hr]
    simp [Topic.edgeFilter_inj hc' hc]
  · intro r hr
    rw [hbroker, Broker.mem_erase]
    simp [Registration.key, hr]

end Session

namespace Topic

/-- Topics and filters read back from their spelling, a filter's spelling tells its channel, and so
does a subject under a lead that can stand in subjects. -/
theorem places_have_one_name :
    (∀ topic c, parse topic = .ok c → parse (edgeTopic c.id c.subtopic) = .ok c) ∧
    (∀ filter c, parseFilter filter = .ok c → parseFilter (edgeFilter c) = .ok c) ∧
    (∀ f f' c c', parseFilter f = .ok c → parseFilter f' = .ok c' →
      (edgeFilter c = edgeFilter c' ↔ c = c')) ∧
    (∀ (s : Session) client f c, s.connected? = some client → parseFilter f = .ok c →
      ∀ st m now v, ∃ v', (s.unsubscribe st m [⟨c, .unsubscribe⟩]).run (Services.answer now) v =
          (v', .answer (.ok [edgeFilter c])) ∧
        (∀ f' c', parseFilter f' = .ok c' → ∀ r : Registration, r.key = (s.owner, edgeFilter c') →
          (r ∈ v'.broker.registrations ↔ r ∈ v.broker.registrations ∧ c' ≠ c)) ∧
        ∀ r : Registration, r.owner ≠ s.owner →
          (r ∈ v'.broker.registrations ↔ r ∈ v.broker.registrations)) ∧
    ∀ lead, Subject.isSubject lead = true →
      (∀ topic c, parse topic = .ok c → Subject.isSubject (subject lead c) = true ∧
        Subject.patternMatches (allChannels lead) (subject lead c) = true) ∧
      ∀ topic topic' c c', parse topic = .ok c → parse topic' = .ok c' →
        subject lead c = subject lead c' → c = c' := by
  refine ⟨?_, ?_, ?_, ?_, ?_⟩
  · intro topic c hc
    obtain ⟨ts, hts, hsub⟩ := parse_ok hc
    exact parse_edgeTopic hts hsub
  · intro filter c hc
    obtain ⟨ts, hts, hsub⟩ := parseFilter_ok hc
    exact parseFilter_edgeFilter hts hsub
  · intro f f' c c' hc hc'
    exact edgeFilter_inj hc hc'
  · intro s client f c hs hc st m now v
    exact Session.unsubscribe_removes_token hs hc st m now v
  · intro lead hlead
    constructor
    · intro topic c hc
      obtain ⟨ts, hts, hsub⟩ := parse_ok hc
      exact ⟨isSubject_subject hlead hts hsub,
        allChannels_matches lead (fun t ht => (hts t ht).1) hsub⟩
    · intro topic topic' c c' hc hc' h
      obtain ⟨ts, hts, hsub⟩ := parse_ok hc
      obtain ⟨ts', hts', hsub'⟩ := parse_ok hc'
      exact subject_inj lead (fun t ht => (hts t ht).1) hsub (fun t ht => (hts' t ht).1) hsub' h

theorem places_have_one_name_of_two_spellings :
    ∃ (c c' d d' : Channel) (s : Session), parse "/channels/c1/messages//a.b/?q" = .ok c ∧
      parse (edgeTopic c.id c.subtopic) = .ok c ∧ parse "channels/c1/messages/a/b" = .ok c' ∧
      parseFilter "channels/c1/messages/*//>" = .ok d ∧ parseFilter (edgeFilter d) = .ok d ∧
      parseFilter "channels/c1/messages/+/#" = .ok d' ∧
      (edgeFilter d = edgeFilter d' ↔ d = d') ∧
      s.connected? = some ⟨"p"⟩ ∧
      (∀ st m now v, ∃ v',
        (s.unsubscribe st m [⟨d, .unsubscribe⟩]).run (Services.answer now) v =
            (v', .answer (.ok [edgeFilter d])) ∧
          (∀ f' c', parseFilter f' = .ok c' → ∀ r : Registration,
            r.key = (s.owner, edgeFilter c') →
            (r ∈ v'.broker.registrations ↔ r ∈ v.broker.registrations ∧ c' ≠ d)) ∧
          ∀ r : Registration, r.owner ≠ s.owner →
            (r ∈ v'.broker.registrations ↔ r ∈ v.broker.registrations)) ∧
      Subject.isSubject "mqtt" = true ∧ Subject.isSubject (subject "mqtt" c) = true ∧
      Subject.patternMatches (allChannels "mqtt") (subject "mqtt" c) = true ∧
      subject "mqtt" c = subject "mqtt" c' ∧ c = c' := by
  let c : Channel := ⟨⟨"c1", by decide⟩, "a.b"⟩
  let d : Channel := ⟨⟨"c1", by decide⟩, "*.>"⟩
  let s : Session := { Session.start "1" .mqtt with phase := .connected, client := some ⟨"p"⟩ }
  have hc : parse "/channels/c1/messages//a.b/?q" = .ok c := by decide
  have hc' : parse "channels/c1/messages/a/b" = .ok c := by decide
  have hd : parseFilter "channels/c1/messages/*//>" = .ok d := by decide
  have hd' : parseFilter "channels/c1/messages/+/#" = .ok d := by decide
  have hlead : Subject.isSubject "mqtt" = true := by decide
  have hs : s.connected? = some ⟨"p"⟩ := rfl
  obtain ⟨htopic, hfilter, hinj, hunsubscribe, hsubject⟩ := places_have_one_name
  obtain ⟨hvalid, hdetermines⟩ := hsubject "mqtt" hlead
  exact ⟨c, c, d, d, s, hc, htopic _ _ hc, hc', hd, hfilter _ _ hd, hd', hinj _ _ _ _ hd hd', hs,
    hunsubscribe s _ _ _ hs hd, hlead, (hvalid _ _ hc).1, (hvalid _ _ hc).2, rfl,
    hdetermines _ _ _ _ hc hc' rfl⟩

end Topic

end DeviceGateway
