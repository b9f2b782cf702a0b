import DeviceGateway.Config
import DeviceGateway.Proofs.Bus.Posting
import DeviceGateway.Services
import DeviceGateway.Session.Basic

/-!
# Leads that a gateway can start with

A gateway starts once its forwarder has subscribed to all channels under the lead, and this looks at
the lead as the beginning of a pattern: no token may be empty or `>`. Publishing looks at it as the
beginning of a subject, where `*` cannot stand either. So every lead that was accepted serves all
publishes, or none: those with a token `*` start a gateway on which every publish is refused, and
under all others every publish is taken and sent to the forwarder.
-/

namespace DeviceGateway

namespace Topic

theorem isPatternTokens_append_rest (ts : List (List Char)) :
    Subject.isPatternTokens (ts ++ [['>']]) = ts.all fun t => !t.isEmpty && t != ['>'] := by
  induction ts with
  | nil => rfl
  | cons t ts ih =>
    have hmore : (ts ++ [['>']]).isEmpty = false := by simp
    simp [Subject.isPatternTokens, ih, hmore]

theorem isPattern_allChannels (lead : String) :
    Subject.isPattern (allChannels lead) =
      (Subject.tokens lead).all fun t => !t.isEmpty && t != ['>'] := by
  rw [Subject.isPattern, tokens_allChannels, isPatternTokens_append_rest]

theorem isSubject_iff_of_isPattern {lead : String}
    (h : Subject.isPattern (allChannels lead) = true) :
    Subject.isSubject lead = true ↔ ['*'] ∉ Subject.tokens lead := by
  rw [isPattern_allChannels, List.all_eq_true] at h
  rw [Subject.isSubject, List.all_eq_true]
  constructor
  · intro hall hmem
    exact absurd (hall _ hmem) (by decide)
  · intro hstar t ht
    have hne : t ≠ ['*'] := fun he => hstar (he ▸ ht)
    have hclean := h t ht
    simp only [Bool.and_eq_true] at hclean ⊢
    exact ⟨⟨hclean.1, bne_iff_ne.2 hne⟩, hclean.2⟩

theorem isSubject_of_isSubject_subject {lead topic : String} {c : Channel}
    (hc : parse topic = .ok c)
    (h : Subject.isSubject (subject lead c) = true) : Subject.isSubject lead = true := by
  obtain ⟨ts, hts, hsub⟩ := parse_ok hc
  rw [Subject.isSubject, tokens_subject lead (fun t ht => (hts t ht).1) hsub, List.all_append] at h
  exact (Bool.and_eq_true_iff.1 h).1

end Topic

namespace Session
variable {s : Session} {client : ClientId} {v : Services}

theorem run_authPublish (hs : s.connected? = some client) {topic : String} {c : Channel}
    (hc : Topic.parse topic = .ok c) (hallowed : v.policy.authorize client c.id .publish = .ok ())
    (now : Nat) :
    (s.authPublish topic).run (Services.answer now) v = (v, .answer (.ok ⟨c, .publish⟩)) := by
  simp [authPublish, whenConnected, hs, hc, requestGrant, Activity.run, Services.answer, hallowed]

theorem run_publish (hs : s.connected? = some client) (c : Channel) (payload : Bytes) (m : Moment)
    (now : Nat) {b : Bus} {r : Except BusError Unit}
    (hb : v.bus.publish (Topic.subject v.settings.subjectLead c)
      (.to c client s.protocol payload m) = (b, r)) :
    (s.publish v.settings m ⟨c, .publish⟩ payload).run (Services.answer now) v =
      ({ v with bus := b }, .answer (r.mapError .forwarding)) := by
  cases r with
  | ok =>
    simp [publish, whenConnected, hs, Activity.run, Services.answer, hb, Except.mapError]
  | error e =>
    simp [publish, whenConnected, hs, Activity.run, Services.answer, hb, Except.mapError]

end Session

namespace Services
variable {b₀ b₁ : Bus} {lead : String} {id : SubscriptionId} {v : Services}
variable {s : Session} {client : ClientId} {topic : String} {c : Channel}

/-- Once the forwarder is subscribed under a lead, an allowed publish is taken and sent to it if no
token of the lead is `*`, and otherwise refused with nothing changed. -/
theorem publishing_follows_lead (hbus : Bus.Uses {} b₀)
    (hsub : Forwarder.subscribe b₀ lead = (b₁, .ok id)) (hlater : Bus.Uses b₁ v.bus)
    (hopen : v.bus.isClosed = false) (hf : Forwarder.Subscribed lead v.bus id)
    (hlead : v.settings.subjectLead = lead) (hs : s.connected? = some client)
    (hc : Topic.parse topic = .ok c) (hallowed : v.policy.authorize client c.id .publish = .ok ())
    (payload : Bytes) (m : Moment) (now : Nat) :
    (s.authPublish topic).run (answer now) v = (v, .answer (.ok ⟨c, .publish⟩)) ∧
    (['*'] ∉ Subject.tokens lead → ∃ w box,
      (s.publish v.settings m ⟨c, .publish⟩ payload).run (answer now) v = (w, .answer (.ok ())) ∧
      v.bus.mailboxes[id]? = some box ∧
      w.bus.mailboxes[id]? = some { box with
        waiting := box.waiting ++
          [⟨Topic.subject lead c, .to c client s.protocol payload m⟩] }) ∧
    (['*'] ∈ Subject.tokens lead →
      (s.publish v.settings m ⟨c, .publish⟩ payload).run (answer now) v =
        (v, .answer (.error (.forwarding (.invalidSubject (Topic.subject lead c)))))) := by
  obtain ⟨hpattern, henroll⟩ := Forwarder.enrolled_of_subscribe hsub
  have hcases := Topic.isSubject_iff_of_isPattern hpattern
  have horderly : v.bus.Orderly := by
    cases henroll
    have hstart := Bus.Step.orderly (.enroll (Topic.allChannels lead))
      (hbus.orderly Bus.orderly_empty)
    exact hlater.orderly hstart
  let d : Delivery := ⟨Topic.subject lead c, .to c client s.protocol payload m⟩
  refine ⟨Session.run_authPublish hs hc hallowed now, ?_, ?_⟩
  · intro hstar
    obtain ⟨hreply, box, hbox, hposted⟩ :=
      Bus.publish_subject hopen horderly (hcases.2 hstar) hf hc d.message
    have htaken : v.bus.publish (Topic.subject v.settings.subjectLead c) d.message =
        ((v.bus.publish d.subject d.message).1, .ok ()) := by
      rw [hlead, ← hreply]
    exact ⟨_, box, Session.run_publish hs c payload m now htaken, hbox, hposted⟩
  · intro hstar
    have hinvalid : Subject.isSubject (Topic.subject v.settings.subjectLead c) = false := by
      rw [hlead]
      refine Bool.eq_false_iff.2 fun hsubject => ?_
      exact hcases.1 (Topic.isSubject_of_isSubject_subject hc hsubject) hstar
    have hrefused : v.bus.publish (Topic.subject v.settings.subjectLead c)
        (.to c client s.protocol payload m) =
          (v.bus, .error (.invalidSubject (Topic.subject v.settings.subjectLead c))) := by
      simp [Bus.publish, hopen, hinvalid]
    rw [Session.run_publish hs c payload m now hrefused, hlead]
    rfl

theorem publishing_follows_lead_of_star :
    ∃ (b : Bus) (v : Services) (s : Session) (c : Channel) (config : Config),
      Config.ofLookup (fun name => if name = "EDGEGATE_SUBJECT_PREFIX" then some "*" else none) =
        .ok config ∧ v.settings.subjectLead = config.subjectLead ∧
      Forwarder.subscribe {} "*" = (b, .ok 0) ∧ Bus.Uses b v.bus ∧ v.bus.isClosed = false ∧
      Forwarder.Subscribed "*" v.bus 0 ∧ v.settings.subjectLead = "*" ∧
      s.connected? = some ⟨"A"⟩ ∧ Topic.parse "channels/c1/messages" = .ok c ∧
      v.policy.authorize ⟨"A"⟩ c.id .publish = .ok () ∧
      (s.authPublish "channels/c1/messages").run (answer 0) v = (v, .answer (.ok ⟨c, .publish⟩)) ∧
      ['*'] ∈ Subject.tokens "*" ∧
      (s.publish v.settings ⟨0, 0⟩ ⟨c, .publish⟩ [0]).run (answer 0) v =
        (v, .answer (.error (.forwarding (.invalidSubject (Topic.subject "*" c))))) := by
  let c : Channel := ⟨⟨"c1", by decide⟩, ""⟩
  let config : Config := { subjectLead := "*" }
  let s : Session := { Session.start "1" .mqtt with phase := .connected, client := some ⟨"A"⟩ }
  let v : Services := {
    settings := { subjectLead := "*" }
    registrar := { store := ⟨[]⟩ }, policy := ⟨[⟨"A", "c1", .publish⟩]⟩
    bus := (Forwarder.subscribe {} "*").1 }
  have hconfig : Config.ofLookup
      (fun name => if name = "EDGEGATE_SUBJECT_PREFIX" then some "*" else none) = .ok config := by
    decide
  have hsub : Forwarder.subscribe {} "*" = (v.bus, .ok 0) := rfl
  have hf : Forwarder.Subscribed "*" v.bus 0 := Forwarder.subscribed_of_subscribe hsub
  have hc : Topic.parse "channels/c1/messages" = .ok c := by decide
  have hallowed : v.policy.authorize ⟨"A"⟩ c.id .publish = .ok () := by decide
  have hstar : ['*'] ∈ Subject.tokens "*" := by decide
  obtain ⟨hauth, -, hrefused⟩ := publishing_follows_lead .refl hsub .refl rfl hf rfl
    (rfl : s.connected? = some ⟨"A"⟩) hc hallowed [0] ⟨0, 0⟩ 0
  exact ⟨v.bus, v, s, c, config, hconfig, rfl, hsub, .refl, rfl, hf, rfl, rfl, hc, hallowed, hauth,
    hstar, hrefused hstar⟩

end Services

end DeviceGateway
