import DeviceGateway.Proofs.Session.Line
import DeviceGateway.Proofs.Topic.Coverage

/-!
# What a line holds at the broker, and what is meant for it

A registration of a line is for a channel that the policy cleared for its client, and none is left
once the line swept its registrations. So a notification for such a registration is about a channel
that was cleared, whatever subtopic the message has.
-/

namespace DeviceGateway

namespace Line
variable {owner : String} {queue : QueueId} {acts : List Act} {act : Act} {l l' : Line}
variable {s t : Services} {r : Registration} {h h' : Dealings}

structure Stands (owner : String) (queue : QueueId) (h : Dealings) (r : Registration) : Prop where
  owner : r.owner = owner
  queue : r.queue = queue
  welcomed : Welcomed h
  cleared : Cleared h (r.token, r.filter)

/-- The registration `r` was made by the line that did `acts`, which has not swept it. -/
structure Holds (owner : String) (queue : QueueId) (acts : List Act) (r : Registration) : Prop where
  stands : Stands owner queue (heard acts) r
  entered : ∃ o entries q, .register o entries q ∈ made acts
  unswept : .deregisterOwner owner ∉ made acts

theorem Stands.mono (hr : Stands owner queue h r) (hh : h <+: h') : Stands owner queue h' r where
  owner := hr.owner
  queue := hr.queue
  welcomed := hh.subset hr.welcomed
  cleared := by
    obtain ⟨c, client, he, hparse, ⟨secret, hi⟩, ha⟩ := hr.cleared
    exact ⟨c, client, he, hparse, ⟨secret, hh.subset hi⟩, ha.mono hh⟩

theorem Stands.token_eq (hr : Stands owner queue h r) : r.token = r.filter := by
  obtain ⟨c, client, he, -⟩ := hr.cleared
  obtain ⟨ht, hf⟩ := Prod.mk.inj he
  rw [ht, hf]

theorem Holds.not_after (hr : Holds owner queue acts r) : ¬ Course.After owner (made acts) := by
  intro hafter
  rcases hafter with ⟨-, hnone⟩ | ⟨-, hswept⟩
  · obtain ⟨o, entries, q, hmem⟩ := hr.entered
    exact hnone o entries q hmem
  · exact hr.unswept hswept

theorem Sound.not_holds_of_over (hl : l.Sound owner queue acts) (ho : l.standing.isOver = true) :
    ¬ Holds owner queue acts r :=
  fun hr => hr.not_after (hl.ended ho)

theorem Holds.step (hr : Holds owner queue acts r)
    (hact : act.made? ≠ some (.deregisterOwner owner)) : Holds owner queue (acts ++ [act]) r where
  stands := hr.stands.mono (heard_isPrefix acts act)
  entered := by
    obtain ⟨o, entries, q, hmem⟩ := hr.entered
    refine ⟨o, entries, q, ?_⟩
    rw [made_concat]
    exact List.mem_append_left _ hmem
  unswept := by
    intro hmem
    rw [made_concat] at hmem
    rcases List.mem_append.1 hmem with hmem | hmem
    · exact hr.unswept hmem
    · exact hact (Option.mem_toList.1 hmem)

theorem Step.services (hs : Step queue s l act t l') :
    t = s ∨ ∃ (c : Call) (x : c.Reply), act = .hear c x ∧ s.Answers c x t := by
  cases hs with
  | hear ho hc ha ht => exact .inr ⟨_, _, rfl, ht⟩
  | _ => exact .inl rfl

theorem Step.queues (hs : Step queue s l act t l') : t.queues = s.queues := by
  rcases hs.services with rfl | ⟨c, x, -, ht⟩
  · rfl
  · exact ht.queues

theorem Step.keyed (hs : Step queue s l act t l') (hk : s.broker.Keyed) : t.broker.Keyed := by
  rcases hs.services with rfl | ⟨c, x, -, ht⟩
  · exact hk
  · exact ht.keyed hk

theorem Sound.registered_step (hl : l.Sound owner queue acts) (hs : Step queue s l act t l')
    (hr : r ∈ t.broker.registrations) :
    r ∈ s.broker.registrations ∧ act.made? ≠ some (.deregisterOwner r.owner) ∨
      Holds owner queue (acts ++ [act]) r := by
  have hstep := hs
  cases hs with
  | @ask c k ho hc ha hn =>
    refine .inl ⟨hr, fun hmade => ?_⟩
    cases hmade
    cases ha
  | @hear c k ho hc ha x t ht =>
    rcases ht.mem_registrations hr with hold | ⟨o, entries, q, rfl, e, he, rfl⟩
    · refine .inl ⟨hold, fun hmade => ?_⟩
      cases c with
      | deregisterOwner o =>
        cases hmade
        exact ht.owner_ne hr rfl
      | _ => cases hmade
    · right
      obtain ⟨rfl, rfl, hwelcomed, hcleared, hunswept⟩ := hl.registers hstep
      have hprefix := heard_isPrefix acts (.hear (.register o entries q) x)
      have hmade : made (acts ++ [.hear (.register o entries q) x]) =
          made acts ++ [.register o entries q] := made_concat acts _
      have hstands : Stands o q (heard acts) ⟨o, e.1, e.2, q⟩ := ⟨rfl, rfl, hwelcomed, hcleared e he⟩
      refine ⟨hstands.mono hprefix, ⟨o, entries, q, by simp [hmade]⟩, ?_⟩
      rw [hmade]
      simpa using hunswept o
  | _ =>
    refine .inl ⟨hr, fun hmade => ?_⟩
    cases hmade

end Line

/-- The notification `n` is for a device that was told that it is connected, about a channel that
the policy lets its client subscribe to. -/
def Meant (h : Dealings) (n : Notification) : Prop :=
  Welcomed h ∧ ∃ c client, (Subject.levels n.topic)[1]? = some c.text.toList ∧
    Identified h client ∧ Allowed h client c .subscribe

theorem Meant.mono {h h' : Dealings} {n : Notification} (hn : Meant h n) (hh : h <+: h') :
    Meant h' n := by
  obtain ⟨hw, c, client, hc, ⟨secret, hi⟩, ha⟩ := hn
  exact ⟨hh.subset hw, c, client, hc, ⟨secret, hh.subset hi⟩, ha.mono hh⟩

theorem Line.Stands.meant {owner : String} {queue : QueueId} {h : Dealings} {r : Registration}
    (hr : Stands owner queue h r) {id : ChannelId} {subtopic : String}
    (hm : Subject.filterMatches r.filter (Topic.edgeTopic id subtopic) = true) (token : String)
    (message : Message) : Meant h ⟨Topic.edgeTopic id subtopic, token, message⟩ := by
  obtain ⟨c, client, he, hparse, hidentified, hallowed⟩ := hr.cleared
  obtain ⟨-, hf⟩ := Prod.mk.inj he
  have hpattern := Topic.pattern_of_parseFilter hparse
  rw [hf] at hm
  have hid : c.id = id := Topic.channel_eq_of_filterMatches hpattern hm
  obtain ⟨ls, hls⟩ := Topic.levels_edgeTopic id subtopic
  refine ⟨hr.welcomed, id, client, ?_, hidentified, hid ▸ hallowed⟩
  rw [hls]
  rfl

end DeviceGateway
