import DeviceGateway.Forwarder
import DeviceGateway.Proofs.Topic.Canonical
import Mathlib.Data.List.Nodup
import Mathlib.Logic.Relation

/-!
# What a publish puts where

Whatever is done with a bus, in whatever order, its registry names every subscription at most once,
so a publish that is accepted adds exactly one delivery to the mailbox of a subscription that it
concerns. The forwarder of a lead is concerned by every subject of a channel under that lead.
-/

namespace DeviceGateway
open Text (pieces join)

namespace Bus

inductive Step (b : Bus) : Bus → Prop
  | enroll (pattern : String) : Step b (b.enroll pattern).1
  | post (d : Delivery) : Step b (b.post d)
  | receive (id : SubscriptionId) : Step b (b.receive id).1
  | drop (id : SubscriptionId) : Step b (b.drop id)
  | flag : Step b b.flag
  | forget : Step b b.forget

abbrev Uses : Bus → Bus → Prop := Relation.ReflTransGen Step

theorem uses_publish (b : Bus) (subject : String) (m : Message) :
    Uses b (b.publish subject m).1 := by
  simp only [publish]
  split
  · exact .refl
  · split
    · exact .refl
    · exact .single (.post _)

structure Orderly (b : Bus) : Prop where
  nodup : b.registry.Nodup
  known : ∀ id ∈ b.registry, id < b.mailboxes.length

theorem orderly_empty : Orderly {} := ⟨List.nodup_nil, by simp⟩

theorem length_foldl_modify (f : Mailbox → Mailbox) (ids : List SubscriptionId) (b : Bus) :
    (ids.foldl (fun b id => b.modify id f) b).mailboxes.length = b.mailboxes.length := by
  induction ids generalizing b with
  | nil => rfl
  | cons i ids ih => rw [List.foldl_cons, ih]; simp [modify]

theorem isClosed_foldl_modify (f : Mailbox → Mailbox) (ids : List SubscriptionId) (b : Bus) :
    (ids.foldl (fun b id => b.modify id f) b).isClosed = b.isClosed := by
  induction ids generalizing b with
  | nil => rfl
  | cons i ids ih => exact ih _

theorem getElem?_foldl_modify (f : Mailbox → Mailbox) {ids : List SubscriptionId} (hn : ids.Nodup)
    (b : Bus) (id : SubscriptionId) :
    (ids.foldl (fun b id => b.modify id f) b).mailboxes[id]? =
      if id ∈ ids then b.mailboxes[id]?.map f else b.mailboxes[id]? := by
  induction ids generalizing b with
  | nil => rfl
  | cons i ids ih =>
    obtain ⟨hi, hn⟩ := List.nodup_cons.1 hn
    rw [List.foldl_cons, ih hn]
    by_cases h : id = i
    · subst id
      simp [hi, modify]
    · have hget : (b.modify i f).mailboxes[id]? = b.mailboxes[id]? := by
        simp [modify, Ne.symm h]
      simp [hget, h]

theorem Step.orderly {b c : Bus} (h : Step b c) (ho : b.Orderly) : c.Orderly := by
  have hsub : ∀ p : SubscriptionId → Bool, (b.registry.filter p).Nodup :=
    fun p => ho.nodup.filter p
  cases h with
  | enroll pattern =>
    refine ⟨?_, fun id hid => ?_⟩
    · refine List.nodup_append.2 ⟨ho.nodup, by simp, fun a ha x hx => ?_⟩
      rw [List.mem_singleton] at hx
      exact hx ▸ Nat.ne_of_lt (ho.known a ha)
    · simp only [Bus.enroll, List.mem_append, List.mem_singleton, List.length_append,
        List.length_singleton] at hid ⊢
      rcases hid with hid | rfl
      · exact Nat.lt_succ_of_lt (ho.known id hid)
      · exact Nat.lt_succ_self _
  | post d =>
    refine ⟨hsub _, fun id hid => ?_⟩
    have hid := ho.known id (List.mem_filter.1 hid).1
    simpa only [Bus.post, length_foldl_modify] using hid
  | receive id =>
    simp only [Bus.receive]
    split
    · exact ho
    · split
      · exact ⟨ho.nodup, fun i hi => by simpa [modify] using ho.known i hi⟩
      · exact ho
  | drop id =>
    refine ⟨hsub _, fun i hi => ?_⟩
    simpa [Bus.drop, modify] using ho.known i (List.mem_filter.1 hi).1
  | flag => exact ⟨ho.nodup, ho.known⟩
  | forget => exact ⟨List.nodup_nil, by simp [Bus.forget]⟩

theorem Uses.orderly {b c : Bus} (h : Uses b c) (ho : b.Orderly) : c.Orderly := by
  induction h with
  | refl => exact ho
  | tail _ hs ih => exact hs.orderly ih

theorem post_waiting {b : Bus} (ho : b.Orderly) {id : SubscriptionId} (hid : id ∈ b.registry)
    {box : Mailbox} (hbox : b.mailboxes[id]? = some box) (hheld : box.held = true) {d : Delivery}
    (hm : Subject.patternMatches box.pattern d.subject = true) :
    (b.post d).mailboxes[id]? = some { box with waiting := box.waiting ++ [d] } := by
  have hconcerned : id ∈ b.concerned d.subject := List.mem_filter.2 ⟨hid, by simp [hbox, hm]⟩
  have hnodup : (b.concerned d.subject).Nodup := ho.nodup.filter _
  simp only [post]
  rw [getElem?_foldl_modify _ (hnodup.filter _), if_pos]
  · rw [hbox]
    rfl
  · simp [hconcerned, hbox, hheld]

theorem post_of_not_concerned {b : Bus} (ho : b.Orderly) {id : SubscriptionId} {d : Delivery}
    (h : id ∉ b.concerned d.subject) : (b.post d).mailboxes[id]? = b.mailboxes[id]? := by
  have hnodup : (b.concerned d.subject).Nodup := ho.nodup.filter _
  simp only [post]
  rw [getElem?_foldl_modify _ (hnodup.filter _), if_neg fun hid => h (List.mem_filter.1 hid).1]

theorem receive_of_waiting {b : Bus} {id : SubscriptionId} {box : Mailbox} {d : Delivery}
    {rest : List Delivery} (hbox : b.mailboxes[id]? = some box) (hw : box.waiting = d :: rest) :
    b.receive id = (b.modify id fun box => { box with waiting := rest }, .delivery d) := by
  simp only [receive, hbox, hw]

theorem receive_of_empty {b : Bus} {id : SubscriptionId} {box : Mailbox}
    (hbox : b.mailboxes[id]? = some box) (hw : box.waiting = []) :
    b.receive id = (b, if id ∈ b.registry then .pending else .ended) := by
  simp [receive, hbox, hw]

theorem registry_receive (b : Bus) (id : SubscriptionId) :
    (b.receive id).1.registry = b.registry := by
  simp only [receive]
  split
  · rfl
  · split <;> rfl

theorem isClosed_receive (b : Bus) (id : SubscriptionId) :
    (b.receive id).1.isClosed = b.isClosed := by
  simp only [receive]
  split
  · rfl
  · split <;> rfl

theorem getElem?_receive_of_ne (b : Bus) {id i : SubscriptionId} (hi : i ≠ id) :
    (b.receive i).1.mailboxes[id]? = b.mailboxes[id]? := by
  simp only [receive]
  split
  · rfl
  · split
    · simp [modify, hi]
    · rfl

end Bus

namespace Topic

theorem name_toList {c : Channel} {ts : List (List Char)} (h : ∀ t ∈ ts, IsLevel t)
    (hc : c.subtopic = String.ofList (join '.' ts)) :
    c.name.toList = join '.' (c.id.text.toList :: ts) := by
  cases ts with
  | nil => simp [Channel.name, hc, join]
  | cons t ts =>
    have hne : join '.' (t :: ts) ≠ [] :=
      Text.join_ne_nil (by simp) fun u hu => (h u hu).ne_nil
    rw [Channel.name, hc, if_neg (by simpa [String.ext_iff] using hne)]
    simp [String.toList_append, join]

theorem tokens_subject (lead : String) {c : Channel} {ts : List (List Char)}
    (h : ∀ t ∈ ts, IsLevel t) (hc : c.subtopic = String.ofList (join '.' ts)) :
    Subject.tokens (subject lead c) = Subject.tokens lead ++ c.id.text.toList :: ts := by
  have hclean : ∀ t ∈ c.id.text.toList :: ts, ∀ x ∈ t, (x == '.') = false := by
    intro t ht x hx
    rcases List.mem_cons.1 ht with rfl | ht
    · simpa using ((isLevel_id c.id).clean x hx).2.1
    · simpa using ((h t ht).clean x hx).2.1
  have hname := @Text.pieces_join (· == '.') '.' rfl _ (by simp) hclean
  rw [← name_toList h hc] at hname
  have happ := @Text.pieces_append_sep (· == '.') '.' rfl lead.toList c.name.toList
  simpa [Subject.tokens, subject, String.toList_append, hname] using happ

theorem tokens_allChannels (lead : String) :
    Subject.tokens (allChannels lead) = Subject.tokens lead ++ [['>']] := by
  have happ := @Text.pieces_append_sep (· == '.') '.' rfl lead.toList ['>']
  have hrest : pieces (· == '.') ['>'] = [['>']] := rfl
  simpa [Subject.tokens, allChannels, String.toList_append, hrest] using happ

theorem tokensMatch_append_rest (ps : List (List Char)) (t : List Char) (ts : List (List Char)) :
    Subject.tokensMatch (ps ++ [['>']]) (ps ++ t :: ts) = true := by
  induction ps with
  | nil => rfl
  | cons p ps ih =>
    rw [List.cons_append, List.cons_append]
    by_cases hp : p = ['>']
    · subst hp
      rfl
    · rw [Subject.tokensMatch]
      · simp [ih]
      · exact hp

theorem allChannels_matches (lead : String) {c : Channel} {ts : List (List Char)}
    (h : ∀ t ∈ ts, IsLevel t) (hc : c.subtopic = String.ofList (join '.' ts)) :
    Subject.patternMatches (allChannels lead) (subject lead c) = true := by
  rw [Subject.patternMatches, tokens_allChannels, tokens_subject lead h hc]
  exact tokensMatch_append_rest _ _ _

theorem isSubject_subject {lead : String} (hlead : Subject.isSubject lead = true) {c : Channel}
    {ts : List (List Char)} (h : ∀ t ∈ ts, IsPlain t)
    (hc : c.subtopic = String.ofList (join '.' ts)) :
    Subject.isSubject (subject lead c) = true := by
  have hid : c.id.text.toList ≠ ['*'] ∧ c.id.text.toList ≠ ['>'] :=
    ⟨id_ne_singleton c.id rfl, id_ne_singleton c.id rfl⟩
  rw [Subject.isSubject, tokens_subject lead (fun t ht => (h t ht).1) hc, List.all_append]
  refine Bool.and_eq_true_iff.2 ⟨hlead, List.all_eq_true.2 fun t ht => ?_⟩
  rcases List.mem_cons.1 ht with rfl | ht
  · simp [(isLevel_id c.id).ne_nil, hid]
  · obtain ⟨hl, hw⟩ := h t ht
    have hstar : t ≠ ['*'] := by rintro rfl; exact absurd hw (by decide)
    have hgt : t ≠ ['>'] := by rintro rfl; exact absurd hw (by decide)
    simp [hl.ne_nil, hstar, hgt]

end Topic

structure Forwarder.Subscribed (lead : String) (b : Bus) (id : SubscriptionId) : Prop where
  registered : id ∈ b.registry
  box : ∃ box, b.mailboxes[id]? = some box ∧ box.pattern = Topic.allChannels lead ∧ box.held = true

theorem Forwarder.enrolled_of_subscribe {b b' : Bus} {lead : String} {id : SubscriptionId}
    (h : Forwarder.subscribe b lead = (b', .ok id)) :
    Subject.isPattern (Topic.allChannels lead) = true ∧
      (b', id) = b.enroll (Topic.allChannels lead) := by
  simp only [Forwarder.subscribe, Bus.subscribe] at h
  split at h
  · rename_i hs
    split at hs
    · cases hs
    · split at hs
      · cases hs
      · rename_i hpattern
        cases hs
        cases h
        exact ⟨by simpa using hpattern, rfl⟩
  · cases h

theorem Forwarder.subscribed_of_subscribe {b b' : Bus} {lead : String} {id : SubscriptionId}
    (h : Forwarder.subscribe b lead = (b', .ok id)) : Forwarder.Subscribed lead b' id := by
  obtain ⟨-, henroll⟩ := Forwarder.enrolled_of_subscribe h
  cases henroll
  exact ⟨by simp, { pattern := Topic.allChannels lead }, by simp, rfl, rfl⟩

theorem Bus.publish_subject {b : Bus} (hopen : b.isClosed = false) (ho : b.Orderly) {lead : String}
    (hlead : Subject.isSubject lead = true) {id : SubscriptionId}
    (hf : Forwarder.Subscribed lead b id) {topic : String} {c : Channel}
    (hc : Topic.parse topic = .ok c) (m : Message) :
    (b.publish (Topic.subject lead c) m).2 = .ok () ∧
    ∃ box, b.mailboxes[id]? = some box ∧
      (b.publish (Topic.subject lead c) m).1.mailboxes[id]? =
        some { box with waiting := box.waiting ++ [⟨Topic.subject lead c, m⟩] } := by
  obtain ⟨ts, hplain, hsub⟩ := Topic.parse_ok hc
  obtain ⟨hid, box, hbox, hpat, hheld⟩ := hf
  have hs := Topic.isSubject_subject hlead hplain hsub
  have hm : Subject.patternMatches box.pattern (Topic.subject lead c) = true :=
    hpat ▸ Topic.allChannels_matches lead (fun t ht => (hplain t ht).1) hsub
  have hpub : b.publish (Topic.subject lead c) m = (b.post ⟨Topic.subject lead c, m⟩, .ok ()) := by
    simp [Bus.publish, hopen, hs]
  rw [hpub]
  exact ⟨rfl, box, hbox, Bus.post_waiting ho hid hbox hheld hm⟩

end DeviceGateway
